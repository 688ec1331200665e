import Stormancer.Rpc.CalleeBookkeeping

/-!
# Isolation between the peers that call procedures

A procedure whose filter is `Peer` or `All` serves the P2P peers of the scene too. Each peer
numbers its requests itself, but there is one table of ids for all of them, and every message
goes out to the scene host.

Results:
1. `callee_isolated`: in every run in which no peer meets the entry of another one under its id,
   and only for the host anything is sent, the contexts, the entries and the messages of each
   peer are those of the run with the actions of the other peers taken out, and each message goes
   to the peer that asked for it.
2. `callee_peers_collide`: two peers use one id and the second request is dropped.
-/

namespace Stormancer.Rpc

open RpcCallee (StepCase step_cases)

/-! ## Definitions -/

/-- The action is one of the peer `q` or of its handlers, or of nobody (`cancelAll` and the
changes of the connections). -/
def RpcCallee.Action.concerns (q : Peer) : RpcCallee.Action → Bool
  | .request _ peer _ => peer == q
  | .cancel peer _ => peer == q
  | .sendValue c _ _ => c.peer == q
  | .sendError c _ _ => c.peer == q
  | .handlerEnds c _ => c.peer == q
  | .continuation c => c.peer == q
  | .sendComplete c _ => c.peer == q
  | .reportError c _ => c.peer == q
  | .cancelAll => true
  | .sceneState _ => true
  | .peers _ => true
  | .channelUid _ => true

/-- `t` is what `s` holds of the peer `q`, as if there were no other peer. -/
structure AsAlone (q : Peer) (s t : RpcCallee) : Prop where
  procedures : t.procedures = s.procedures
  connected : t.connected = s.connected
  connectedPeers : t.connectedPeers = s.connectedPeers
  channelUid : t.channelUid = s.channelUid
  contexts : t.contexts q = s.contexts q
  entries : ∀ id : UInt16, t.runningRequests.lookup id =
    (s.runningRequests.lookup id).filter fun c => c.peer == q
  sent : t.sent = s.sent.filter fun m => m.context.peer == q

/-- Something is sent only for the host. -/
def SendsToHost (s : RpcCallee) (c : ContextRef) (fails : Option String) : Prop :=
  s.connected = true → fails = none → c.peer = .host

/-- The entry under the id, if there is one, belongs to the peer. -/
def EntryOf (s : RpcCallee) (id : UInt16) (peer : Peer) : Prop :=
  ∀ c ∈ s.runningRequests.lookup id, c.peer = peer

/-- No peer meets the entry of another one, and only for the host something is sent. -/
def KeepsApart (s : RpcCallee) : RpcCallee.Action → Prop
  | .request route peer id => (s.procedure? route peer).isSome = true → EntryOf s id peer
  | .cancel peer id => MessageOriginFilter.host.admits peer = true → EntryOf s id peer
  | .continuation c => ∀ ctx ∈ s.context? c, ctx.returned = true → EntryOf s ctx.id c.peer
  | .sendValue c _ fails => SendsToHost s c fails
  | .sendError c _ fails => SendsToHost s c fails
  | .sendComplete c fails => SendsToHost s c fails
  | .reportError c fails => SendsToHost s c fails
  | _ => True

namespace CalleeIsolationLemmas

/-! ## What both states do in the same way -/

theorem context?_eq {q : Peer} {s t : RpcCallee} {c : ContextRef} (h : AsAlone q s t)
    (hc : c.peer = q) : t.context? c = s.context? c := by
  unfold RpcCallee.context?
  rw [hc, h.contexts]

theorem lookup_eq {q : Peer} {s t : RpcCallee} {id : UInt16} (h : AsAlone q s t)
    (hid : EntryOf s id q) : t.runningRequests.lookup id = s.runningRequests.lookup id := by
  rw [h.entries]
  cases hl : s.runningRequests.lookup id with
  | none => rfl
  | some c =>
    have hc : c.peer = q := hid c hl
    simp [hc]

theorem procedure?_eq {q : Peer} {s t : RpcCallee} (h : AsAlone q s t) (route : String)
    (peer : Peer) : t.procedure? route peer = s.procedure? route peer := by
  have hknows : t.knows peer = s.knows peer := by
    unfold RpcCallee.knows
    rw [h.connectedPeers]
  unfold RpcCallee.procedure?
  rw [h.procedures, hknows]

theorem modify_both {q : Peer} {s t : RpcCallee} {c : ContextRef} (h : AsAlone q s t)
    (hc : c.peer = q) (f : RpcRequestContext → RpcRequestContext) :
    AsAlone q (s.modify c f) (t.modify c f) := by
  subst hc
  refine ⟨h.procedures, h.connected, h.connectedPeers, h.channelUid, ?_, h.entries, h.sent⟩
  unfold RpcCallee.modify
  dsimp only
  rw [Function.update_self, Function.update_self, h.contexts]

theorem modify_other {q : Peer} {s t : RpcCallee} {c : ContextRef} (h : AsAlone q s t)
    (hc : c.peer ≠ q) (f : RpcRequestContext → RpcRequestContext) :
    AsAlone q (s.modify c f) t := by
  refine ⟨h.procedures, h.connected, h.connectedPeers, h.channelUid, ?_, h.entries, h.sent⟩
  unfold RpcCallee.modify
  dsimp only
  rw [Function.update_of_ne (Ne.symm hc), h.contexts]

theorem erase_both {q : Peer} {s t : RpcCallee} (h : AsAlone q s t) (id : UInt16) :
    AsAlone q { s with runningRequests := s.runningRequests.erase id }
      { t with runningRequests := t.runningRequests.erase id } := by
  refine ⟨h.procedures, h.connected, h.connectedPeers, h.channelUid, h.contexts, fun id' => ?_,
    h.sent⟩
  rw [Slots.Table.lookup_erase_eq, Slots.Table.lookup_erase_eq]
  split
  · rfl
  · exact h.entries id'

theorem erase_other {q : Peer} {s t : RpcCallee} {id : UInt16} {c : ContextRef}
    (h : AsAlone q s t) (hl : s.runningRequests.lookup id = some c) (hc : c.peer ≠ q) :
    AsAlone q { s with runningRequests := s.runningRequests.erase id } t := by
  refine ⟨h.procedures, h.connected, h.connectedPeers, h.channelUid, h.contexts, fun id' => ?_,
    h.sent⟩
  rw [Slots.Table.lookup_erase_eq, h.entries]
  split
  · next he =>
    subst he
    rw [hl]
    simp [hc]
  · rfl

theorem emit_both {q : Peer} {s t : RpcCallee} {c : ContextRef} (h : AsAlone q s t)
    (hc : c.peer = q) (id : UInt16) (body : Reply) (reliability : PacketReliability) :
    AsAlone q (s.emit c id body reliability) (t.emit c id body reliability) := by
  refine ⟨h.procedures, h.connected, h.connectedPeers, h.channelUid, h.contexts, h.entries, ?_⟩
  unfold RpcCallee.emit
  dsimp only
  rw [List.filter_append, h.sent, h.channelUid, List.filter_cons_of_pos (by simpa using hc),
    List.filter_nil]

theorem emit_other {q : Peer} {s t : RpcCallee} {c : ContextRef} (h : AsAlone q s t)
    (hc : c.peer ≠ q) (id : UInt16) (body : Reply) (reliability : PacketReliability) :
    AsAlone q (s.emit c id body reliability) t := by
  refine ⟨h.procedures, h.connected, h.connectedPeers, h.channelUid, h.contexts, h.entries, ?_⟩
  unfold RpcCallee.emit
  dsimp only
  rw [List.filter_append, h.sent, List.filter_cons_of_neg (by simpa using hc), List.filter_nil,
    List.append_nil]

theorem accept_both {q : Peer} {s t : RpcCallee} (h : AsAlone q s t) (id : UInt16)
    (ordered : Bool) : AsAlone q (s.accept q id ordered) (t.accept q id ordered) := by
  refine ⟨h.procedures, h.connected, h.connectedPeers, h.channelUid, ?_, fun id' => ?_, h.sent⟩
  · unfold RpcCallee.accept
    dsimp only
    rw [Function.update_self, Function.update_self, h.contexts]
  · unfold RpcCallee.accept
    dsimp only
    rw [Slots.Table.lookup_insert_eq, Slots.Table.lookup_insert_eq, h.contexts]
    split
    · rw [Option.filter_some, if_pos (beq_self_eq_true q)]
    · exact h.entries id'

theorem accept_other {q peer : Peer} {s t : RpcCallee} {id : UInt16} (h : AsAlone q s t)
    (hp : peer ≠ q) (hfree : s.runningRequests.lookup id = none) (ordered : Bool) :
    AsAlone q (s.accept peer id ordered) t := by
  refine ⟨h.procedures, h.connected, h.connectedPeers, h.channelUid, ?_, fun id' => ?_, h.sent⟩
  · unfold RpcCallee.accept
    dsimp only
    rw [Function.update_of_ne (Ne.symm hp), h.contexts]
  · unfold RpcCallee.accept
    dsimp only
    rw [Slots.Table.lookup_insert_eq, h.entries]
    split
    · next he =>
      subst he
      rw [hfree, Option.filter_some, if_neg (by simpa using hp)]
      rfl
    · rfl

theorem cancelAll_both {q : Peer} {s t : RpcCallee} (h : AsAlone q s t) :
    AsAlone q s.cancelAll t.cancelAll := by
  obtain ⟨hr, _, hsent, hctxs⟩ := s.cancelAll_spec
  obtain ⟨hr', _, hsent', hctxs'⟩ := t.cancelAll_spec
  obtain ⟨hp, hc, hcp, hu⟩ := s.cancelAll_config
  obtain ⟨hp', hc', hcp', hu'⟩ := t.cancelAll_config
  -- The table of `t` has the entries of the peer.
  have hvalues : ∀ c : ContextRef, c.peer = q →
      (c ∈ t.runningRequests.values ↔ c ∈ s.runningRequests.values) := by
    intro c hcq
    rw [Slots.Table.mem_values, Slots.Table.mem_values]
    refine exists_congr fun id => ?_
    rw [h.entries, Option.filter_eq_some_iff]
    simp [hcq]
  refine ⟨by rw [hp', hp, h.procedures], by rw [hc', hc, h.connected],
    by rw [hcp', hcp, h.connectedPeers], by rw [hu', hu, h.channelUid], ?_, fun id => ?_,
    by rw [hsent', hsent, h.sent]⟩
  · refine List.ext_getElem? fun i => ?_
    show t.cancelAll.context? ⟨q, i⟩ = s.cancelAll.context? ⟨q, i⟩
    rw [hctxs, hctxs', context?_eq h rfl]
    simp only [hvalues ⟨q, i⟩ rfl]
  · rw [hr, hr']
    rfl

/-! ## One step -/

theorem emit_or_fail {q : Peer} {s t : RpcCallee} {c : ContextRef} (h : AsAlone q s t)
    (hc : c.peer = q) (id : UInt16) (body : Reply) (reliability : PacketReliability)
    (fails : Option String) :
    (∃ what, s.send c id body reliability fails = .error what ∧
      t.send c id body reliability fails = .error what) ∨
    ∃ s' t', s.send c id body reliability fails = .ok s' ∧
      t.send c id body reliability fails = .ok t' ∧ AsAlone q s' t' := by
  unfold RpcCallee.send
  rw [h.connected]
  split
  · exact Or.inl ⟨_, rfl, rfl⟩
  · cases fails with
    | some what => exact Or.inl ⟨what, rfl, rfl⟩
    | none => exact Or.inr ⟨_, _, rfl, rfl, emit_both h hc id body reliability⟩

/-- An action of another peer does not show. -/
theorem hidden_step {q : Peer} {s s' t : RpcCallee} {a : RpcCallee.Action} (h : AsAlone q s t)
    (hg : KeepsApart s a) (hs : RpcCallee.step s a = some s') (ha : a.concerns q = false) :
    AsAlone q s' t := by
  have other : ∀ {peer : Peer}, (peer == q) = false → peer ≠ q := by
    intro peer hp
    simpa using hp
  cases step_cases hs with
  | idle => exact h
  | sceneState connected => cases ha
  | peers connectedPeers => cases ha
  | channelUid uid => cases ha
  | cancelAll => cases ha
  | accept route peer id p hproc hfree => exact accept_other h (other ha) hfree _
  | cancel peer id c hadm hentry =>
    have hc : c.peer ≠ q := by
      rw [hg hadm c hentry]
      exact other ha
    exact modify_other (erase_other h hentry hc) hc _
  | value c ctx value hctx hsend => exact modify_other (emit_other h (other ha) _ _ _) (other ha) _
  | handlerError c ctx errorMsg hctx hsend => exact emit_other h (other ha) _ _ _
  | ended c ctx outcome hctx hp => exact modify_other h (other ha) _
  | erased c c' ctx hctx hp hentry =>
    have hc' : c'.peer ≠ q := by
      rw [hg ctx hctx hp c' hentry]
      exact other ha
    exact modify_other (erase_other h hentry hc') (other ha) _
  | notFound c ctx hctx hp hentry => exact modify_other h (other ha) _
  | threw c ctx what hctx hp => exact modify_other h (other ha) _
  | threwOther c ctx hctx hp => exact modify_other h (other ha) _
  | completed c ctx hctx hp hsend => exact modify_other (emit_other h (other ha) _ _ _) (other ha) _
  | failed c ctx what hctx hp hsend =>
    exact modify_other (emit_other h (other ha) _ _ _) (other ha) _
  | completeFailed c ctx what fails hctx hp => exact modify_other h (other ha) _
  | errorFailed c ctx what fails hctx hp => exact modify_other h (other ha) _

/-- Both states have the same context, so what is done with it can be compared for it alone. -/
theorem matched_context {q : Peer} {s s' t : RpcCallee} {c : ContextRef} (h : AsAlone q s t)
    (hc : c.peer = q) {f g : RpcRequestContext → Option RpcCallee}
    (hs : (match s.context? c with | none => none | some ctx => f ctx) = some s')
    (hmatch : ∀ ctx, s.context? c = some ctx → f ctx = some s' →
      ∃ t', g ctx = some t' ∧ AsAlone q s' t') :
    ∃ t', (match t.context? c with | none => none | some ctx => g ctx) = some t' ∧
      AsAlone q s' t' := by
  rw [context?_eq h hc]
  cases hctx : s.context? c with
  | none =>
    rw [hctx] at hs
    cases hs
  | some ctx =>
    rw [hctx] at hs
    exact hmatch ctx hctx hs

/-- Both states send or both fail. -/
theorem matched_send {q : Peer} {s s' t : RpcCallee} {c : ContextRef} {id : UInt16} {body : Reply}
    {reliability : PacketReliability} {fails : Option String} (h : AsAlone q s t)
    (hc : c.peer = q) {failed failed' : String → RpcCallee} {sent sent' : RpcCallee → RpcCallee}
    (hs : (match s.send c id body reliability fails with
      | .error what => some (failed what)
      | .ok s => some (sent s)) = some s')
    (hfailed : ∀ what, AsAlone q (failed what) (failed' what))
    (hsent : ∀ s₁ t₁, AsAlone q s₁ t₁ → AsAlone q (sent s₁) (sent' t₁)) :
    ∃ t', (match t.send c id body reliability fails with
      | .error what => some (failed' what)
      | .ok t => some (sent' t)) = some t' ∧ AsAlone q s' t' := by
  rcases emit_or_fail h hc id body reliability fails with
    ⟨what, he, he'⟩ | ⟨s₁, t₁, he, he', h₁⟩
  · rw [he] at hs
    rw [he']
    cases hs
    exact ⟨_, rfl, hfailed what⟩
  · rw [he] at hs
    rw [he']
    cases hs
    exact ⟨_, rfl, hsent s₁ t₁ h₁⟩

/-- Both states have the entry under the id or neither has. -/
theorem matched_lookup {q : Peer} {s s' t : RpcCallee} {id : UInt16}
    (hl : t.runningRequests.lookup id = s.runningRequests.lookup id) {stored stored' : RpcCallee}
    {free free' : RpcCallee}
    (hs : (match s.runningRequests.lookup id with
      | some _ => some stored
      | none => some free) = some s')
    (hstored : AsAlone q stored stored') (hfree : AsAlone q free free') :
    ∃ t', (match t.runningRequests.lookup id with
      | some _ => some stored'
      | none => some free') = some t' ∧ AsAlone q s' t' := by
  rw [hl]
  cases hentry : s.runningRequests.lookup id with
  | none =>
    rw [hentry] at hs
    cases hs
    exact ⟨_, rfl, hfree⟩
  | some c =>
    rw [hentry] at hs
    cases hs
    exact ⟨_, rfl, hstored⟩

theorem matched_continuation {q : Peer} {s s' t : RpcCallee} {c : ContextRef}
    (h : AsAlone q s t) (hg : KeepsApart s (.continuation c))
    (hs : RpcCallee.step s (.continuation c) = some s') (hc : c.peer = q) :
    ∃ t', RpcCallee.step t (.continuation c) = some t' ∧ AsAlone q s' t' := by
  simp only [RpcCallee.step, RpcCallee.continuation] at hs ⊢
  refine matched_context h hc hs ?_
  intro ctx hctx hf
  have hl : ctx.returned = true →
      t.runningRequests.lookup ctx.id = s.runningRequests.lookup ctx.id := by
    intro hret
    refine lookup_eq h ?_
    rw [← hc]
    exact hg ctx hctx hret
  unfold RpcRequestContext.returned at hl
  cases hp : ctx.phase with
  | ended outcome =>
    rw [hp] at hf hl
    cases outcome with
    | success | canceled =>
      exact matched_lookup (hl rfl) hf (modify_both (erase_both h ctx.id) hc _)
        (modify_both h hc _)
    | exception | otherThrown =>
      cases hf
      exact ⟨_, rfl, modify_both h hc _⟩
  | running | completing | failing | finished =>
    rw [hp] at hf
    cases hf

/-- An action of the peer itself goes the same way when it is alone. -/
theorem matched_step {q : Peer} {s s' t : RpcCallee} {a : RpcCallee.Action} (h : AsAlone q s t)
    (hg : KeepsApart s a) (hs : RpcCallee.step s a = some s') (ha : a.concerns q = true) :
    ∃ t', RpcCallee.step t a = some t' ∧ AsAlone q s' t' := by
  cases a with
  | request route peer id =>
    have hpeer : peer = q := beq_iff_eq.mp ha
    subst hpeer
    cases hs
    refine ⟨_, rfl, ?_⟩
    unfold RpcCallee.request
    rw [procedure?_eq h]
    cases hproc : s.procedure? route peer with
    | none => exact h
    | some p =>
      dsimp only
      rw [lookup_eq h (hg (by rw [hproc]; rfl))]
      cases s.runningRequests.lookup id with
      | some c => exact h
      | none => exact accept_both h id p.ordered
  | cancel peer id =>
    have hpeer : peer = q := beq_iff_eq.mp ha
    subst hpeer
    cases hs
    refine ⟨_, rfl, ?_⟩
    unfold RpcCallee.cancel
    split
    · next hadm =>
      rw [lookup_eq h (hg hadm)]
      cases hl : s.runningRequests.lookup id with
      | none => exact h
      | some c => exact modify_both (erase_both h id) (hg hadm c hl) _
    · exact h
  | cancelAll =>
    cases hs
    exact ⟨_, rfl, cancelAll_both h⟩
  | sendValue c value fails =>
    have hc : c.peer = q := beq_iff_eq.mp ha
    simp only [RpcCallee.step, RpcCallee.sendValue] at hs ⊢
    refine matched_context h hc hs ?_
    intro ctx _ hf
    refine matched_send h hc hf ?_ ?_
    · exact fun _ => h
    · exact fun _ _ h₁ => modify_both h₁ hc _
  | sendError c errorMsg fails =>
    have hc : c.peer = q := beq_iff_eq.mp ha
    simp only [RpcCallee.step, RpcCallee.sendError] at hs ⊢
    refine matched_context h hc hs ?_
    intro ctx _ hf
    refine matched_send h hc hf ?_ ?_
    · exact fun _ => h
    · exact fun _ _ h₁ => h₁
  | handlerEnds c outcome =>
    have hc : c.peer = q := beq_iff_eq.mp ha
    simp only [RpcCallee.step, RpcCallee.handlerEnds] at hs ⊢
    refine matched_context h hc hs ?_
    intro ctx _ hf
    split at hf
    · next hp =>
      cases hf
      rw [if_pos hp]
      exact ⟨_, rfl, modify_both h hc _⟩
    · cases hf
  | continuation c => exact matched_continuation h hg hs (beq_iff_eq.mp ha)
  | sendComplete c fails =>
    have hc : c.peer = q := beq_iff_eq.mp ha
    simp only [RpcCallee.step, RpcCallee.sendComplete] at hs ⊢
    refine matched_context h hc hs ?_
    intro ctx _ hf
    split at hf
    · next hp =>
      rw [if_pos hp]
      refine matched_send h hc hf ?_ ?_
      · exact fun _ => modify_both h hc _
      · exact fun _ _ h₁ => modify_both h₁ hc _
    · cases hf
  | reportError c fails =>
    have hc : c.peer = q := beq_iff_eq.mp ha
    simp only [RpcCallee.step, RpcCallee.reportError] at hs ⊢
    refine matched_context h hc hs ?_
    intro ctx _ hf
    split at hf
    · refine matched_send h hc hf ?_ ?_
      · exact fun _ => modify_both h hc _
      · exact fun _ _ h₁ => modify_both h₁ hc _
    all_goals cases hf
  | sceneState connected =>
    cases hs
    exact ⟨_, rfl, h.procedures, rfl, h.connectedPeers, h.channelUid, h.contexts, h.entries, h.sent⟩
  | peers connectedPeers =>
    cases hs
    exact ⟨_, rfl, h.procedures, h.connected, rfl, h.channelUid, h.contexts, h.entries, h.sent⟩
  | channelUid uid =>
    cases hs
    exact ⟨_, rfl, h.procedures, h.connected, h.connectedPeers, rfl, h.contexts, h.entries, h.sent⟩

/-! ## Runs -/

theorem asAlone_init (q : Peer) (procedures : List Procedure) :
    AsAlone q (RpcCallee.init procedures) (RpcCallee.init procedures) :=
  ⟨rfl, rfl, rfl, rfl, rfl, fun _ => rfl, rfl⟩

/-- Every message goes to the peer that its context is for. -/
def RepliesToPeer (s : RpcCallee) : Prop := ∀ m ∈ s.sent, m.target = m.context.peer

theorem repliesToPeer_emit {s : RpcCallee} {c : ContextRef} (h : RepliesToPeer s)
    (hc : c.peer = .host) (id : UInt16) (body : Reply) (reliability : PacketReliability) :
    RepliesToPeer (s.emit c id body reliability) := by
  intro m hm
  rcases List.mem_append.mp hm with hm | hm
  · exact h m hm
  · rw [List.mem_singleton] at hm
    subst hm
    exact hc.symm

theorem repliesToPeer_step {s s' : RpcCallee} {a : RpcCallee.Action} (h : RepliesToPeer s)
    (hg : KeepsApart s a) (hs : RpcCallee.step s a = some s') : RepliesToPeer s' := by
  cases step_cases hs with
  | cancelAll =>
    unfold RepliesToPeer
    rw [s.cancelAll_spec.2.2.1]
    exact h
  | value c ctx value hctx hsend => exact repliesToPeer_emit h (hg hsend rfl) _ _ _
  | handlerError c ctx errorMsg hctx hsend => exact repliesToPeer_emit h (hg hsend rfl) _ _ _
  | completed c ctx hctx hp hsend => exact repliesToPeer_emit h (hg hsend rfl) _ _ _
  | failed c ctx what hctx hp hsend => exact repliesToPeer_emit h (hg hsend rfl) _ _ _
  | _ => exact h

end CalleeIsolationLemmas

open CalleeIsolationLemmas

/-! ## Main results -/

/-- A run as each peer sees it: the other peers' actions might as well not have happened, and
what is sent for the peer goes to it. -/
def Isolated (procedures : List Procedure) (as : List RpcCallee.Action) (s : RpcCallee) : Prop :=
  (∀ q : Peer, ∃ t, Lts.Run RpcCallee.step Lts.anyStep (RpcCallee.init procedures)
    (as.filter (RpcCallee.Action.concerns q)) t ∧ AsAlone q s t) ∧
  ∀ m ∈ s.sent, m.target = m.context.peer

/-- In every run in which no peer meets another peer's entry under its id, and only for the
host anything is sent, the peers are isolated from each other. -/
theorem callee_isolated {procedures : List Procedure} {as : List RpcCallee.Action}
    {s : RpcCallee} (h : Lts.Run RpcCallee.step KeepsApart (RpcCallee.init procedures) as s) :
    Isolated procedures as s := by
  constructor
  · intro q
    refine h.project (asAlone_init q procedures) ?_ ?_
    · intro s a s' t hst hg hs ha
      exact hidden_step hst hg hs ha
    · intro s a s' t hst hg hs ha
      exact matched_step hst hg hs ha
  · refine h.invariant ?_ fun _ _ _ hi hg hs => repliesToPeer_step hi hg hs
    intro m hm
    cases hm

instance (s : RpcCallee) (id : UInt16) (peer : Peer) : Decidable (EntryOf s id peer) :=
  inferInstanceAs (Decidable (∀ c ∈ s.runningRequests.lookup id, c.peer = peer))

instance (s : RpcCallee) (c : ContextRef) (fails : Option String) :
    Decidable (SendsToHost s c fails) :=
  inferInstanceAs (Decidable (s.connected = true → fails = none → c.peer = .host))

instance : ∀ (s : RpcCallee) (a : RpcCallee.Action), Decidable (KeepsApart s a)
  | s, .request route peer id =>
    inferInstanceAs (Decidable ((s.procedure? route peer).isSome = true → EntryOf s id peer))
  | s, .cancel peer id => inferInstanceAs (Decidable
      (MessageOriginFilter.host.admits peer = true → EntryOf s id peer))
  | s, .continuation c => inferInstanceAs (Decidable
      (∀ ctx ∈ s.context? c, ctx.returned = true → EntryOf s ctx.id c.peer))
  | s, .sendValue c _ fails => inferInstanceAs (Decidable (SendsToHost s c fails))
  | s, .sendError c _ fails => inferInstanceAs (Decidable (SendsToHost s c fails))
  | s, .sendComplete c fails => inferInstanceAs (Decidable (SendsToHost s c fails))
  | s, .reportError c fails => inferInstanceAs (Decidable (SendsToHost s c fails))
  | _, .cancelAll | _, .handlerEnds .. | _, .sceneState _ | _, .peers _
  | _, .channelUid _ => inferInstanceAs (Decidable True)

def exPeer : Peer := .p2p "a"

/-- The host and a P2P peer use different ids; the host's handler sends a value and completes. -/
def exApart : List RpcCallee.Action :=
  [.peers ["a"], .request "echo" .host 1, .request "echo" exPeer 2, .cancel exPeer 1,
    .sendValue (exHost 0) [7] none, .handlerEnds (exHost 0) .success, .continuation (exHost 0),
    .sendComplete (exHost 0) none]

theorem callee_isolated_apart :
    ∃ s : RpcCallee, (s.sent.length = 2 ∧ (s.contexts exPeer).length = 1) ∧
      Isolated exProcedures exApart s := by
  have hexec : (Lts.exec RpcCallee.step KeepsApart (RpcCallee.init exProcedures) exApart).any
      (fun s => decide (s.sent.length = 2 ∧ (s.contexts exPeer).length = 1)) = true := by decide
  obtain ⟨s, hs, hp⟩ := (Option.any_eq_true _ _).mp hexec
  exact ⟨s, of_decide_eq_true hp, callee_isolated (Lts.Run.of_exec hs)⟩

/-- The P2P peer uses the id of a request of the host that is still running. -/
def exCollision : List RpcCallee.Action :=
  [.peers ["a"], .request "echo" .host 1, .request "echo" exPeer 1]

/-- Without the condition the request of one peer suppresses the request of another one. -/
theorem callee_peers_collide : ¬ ∀ (procedures : List Procedure) (as : List RpcCallee.Action)
    (s : RpcCallee), Lts.Run RpcCallee.step Lts.anyStep (RpcCallee.init procedures) as s →
    Isolated procedures as s := by
  intro hall
  have hexec : (Lts.exec RpcCallee.step Lts.anyStep (RpcCallee.init exProcedures)
      exCollision).any (fun s => (s.contexts exPeer).length == 0) = true := by decide
  obtain ⟨s, hs, hnone⟩ := (Option.any_eq_true _ _).mp hexec
  obtain ⟨t, ht, hst⟩ := (hall exProcedures exCollision s (Lts.Run.of_exec hs)).1 exPeer
  -- Alone, the peer gets its context.
  have halone : (Lts.exec RpcCallee.step Lts.anyStep (RpcCallee.init exProcedures)
      (exCollision.filter (RpcCallee.Action.concerns exPeer))).all
      (fun t => (t.contexts exPeer).length == 1) = true := by decide
  rw [ht.exec_eq] at halone
  have hone : (t.contexts exPeer).length = 1 := by simpa using halone
  rw [hst.contexts] at hone
  simp only [beq_iff_eq] at hnone
  omega

end Stormancer.Rpc

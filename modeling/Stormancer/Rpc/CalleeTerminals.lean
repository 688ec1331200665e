import Stormancer.Rpc.CalleeBookkeeping

/-!
# COMPLETE and ERROR messages of the callee

A handler outlives its entry: after a cancellation it still runs, while its id may be accepted
again. Its continuation looks the entry up by the id, so it finds the entry of the other
invocation, and it sends ERROR without any look at the table. The message goes out after the
lock is released, so the id may be accepted or cancelled in between.

Results:
1. `callee_terminals_current`: in every run in which no ending meets an entry of another
   invocation, no cancelled handler throws, nothing happens to the id of an invocation that is
   about to send its last message, and no handler sends ERROR itself, each COMPLETE or ERROR is
   sent for the invocation last accepted under its id, which was not cancelled, and no
   invocation sends two of them.
2. `callee_terminal_of_another`: a handler that was cancelled completes the invocation that has
   its id now.
-/

namespace Stormancer.Rpc

open RpcCallee (StepCase step_cases)

/-! ## Definitions -/

/-- The number of COMPLETE and ERROR messages sent for the context. -/
def RpcCallee.terminalsOf (s : RpcCallee) (c : ContextRef) : Nat :=
  s.sent.countP fun m => m.context == c && m.body.isTerminal

/-- The endings and the cancellations keep to the invocation that has the id. -/
def SettlesCurrent (s : RpcCallee) : RpcCallee.Action → Prop
  | .request route peer id => (s.procedure? route peer).isSome = true →
      s.runningRequests.lookup id = none → ∀ c ∈ s.accepted.lookup id,
        ∀ ctx ∈ s.context? c, ctx.isReplying = false
  | .cancel peer id => MessageOriginFilter.host.admits peer = true →
      ∀ c ∈ s.runningRequests.lookup id, ∀ ctx ∈ s.context? c, ctx.isFailing = false
  | .cancelAll => ∀ c ∈ s.runningRequests.values, ∀ ctx ∈ s.context? c, ctx.isFailing = false
  | .sendError .. => False
  | .continuation c => ErasesOwn s (.continuation c) ∧
      ∀ ctx ∈ s.context? c, ctx.threwException = true → ctx.canceled = false
  | _ => True

/-- An invocation that is about to send its last message has its id and is not cancelled. -/
def ReplyingCurrent (s : RpcCallee) : Prop :=
  ∀ (c : ContextRef) (ctx : RpcRequestContext), s.context? c = some ctx →
    ctx.isReplying = true → ctx.canceled = false ∧ s.accepted.lookup ctx.id = some c

/-- An invocation has sent its last message only when it is finished, and then one at most. -/
structure SentOnce (s : RpcCallee) : Prop where
  unsent : ∀ c : ContextRef, (∀ ctx, s.context? c = some ctx → ctx.phase ≠ .finished) →
    s.terminalsOf c = 0
  once : ∀ c : ContextRef, s.terminalsOf c ≤ 1

namespace CalleeTerminalLemmas

open CalleeLemmas

/-! ## Who is about to reply -/

theorem replying_congr {s s' : RpcCallee} (h : ReplyingCurrent s)
    (hc : s'.contexts = s.contexts) (ha : s'.accepted = s.accepted) : ReplyingCurrent s' := by
  intro c ctx hctx
  have hget : s'.context? c = s.context? c := by unfold RpcCallee.context?; rw [hc]
  rw [hget] at hctx
  rw [ha]
  exact h c ctx hctx

theorem replying_modify {s : RpcCallee} {c : ContextRef}
    {f : RpcRequestContext → RpcRequestContext} (h : ReplyingCurrent s)
    (hf : ∀ ctx, s.context? c = some ctx → (f ctx).isReplying = true →
      (f ctx).canceled = false ∧ s.accepted.lookup (f ctx).id = some c) :
    ReplyingCurrent (s.modify c f) := by
  intro c' ctx' hctx' hrep
  rw [RpcCallee.context?_modify] at hctx'
  split at hctx'
  · next hc =>
    subst hc
    obtain ⟨ctx, hctx, rfl⟩ := Option.map_eq_some_iff.mp hctx'
    exact hf ctx hctx hrep
  · exact h c' ctx' hctx' hrep

/-- A change of the phase to one that does not reply. -/
theorem replying_setPhase {s : RpcCallee} {c : ContextRef} {phase : Phase}
    (h : ReplyingCurrent s) (hp : ∀ ctx : RpcRequestContext,
      RpcRequestContext.isReplying { ctx with phase := phase } = false) :
    ReplyingCurrent (s.setPhase c phase) := by
  refine replying_modify h fun ctx hctx hrep => ?_
  rw [hp ctx] at hrep
  cases hrep

/-- What has an entry and is not failing does not reply. -/
theorem not_replying_of_entry {s : RpcCallee} (hk : Keyed s) {id : UInt16} {c : ContextRef}
    {ctx : RpcRequestContext} (hl : s.runningRequests.lookup id = some c)
    (hctx : s.context? c = some ctx) (hf : ctx.isFailing = false) : ctx.isReplying = false := by
  obtain ⟨ctx', hctx', _, _, hph⟩ := hk.entry id c hl
  rw [hctx] at hctx'
  cases hctx'
  unfold RpcRequestContext.isFailing at hf
  unfold RpcRequestContext.isReplying
  split
  · next hp => exact absurd hp hph
  · next hp =>
    rw [hp] at hf
    cases hf
  all_goals rfl

theorem replying_step {s s' : RpcCallee} {a : RpcCallee.Action} (h : ReplyingCurrent s)
    (hk : Keyed s) (hlive : LiveKept s) (hg : SettlesCurrent s a)
    (hs : RpcCallee.step s a = some s') : ReplyingCurrent s' := by
  cases step_cases hs with
  | idle => exact h
  | sceneState connected => exact replying_congr h rfl rfl
  | peers connectedPeers => exact replying_congr h rfl rfl
  | channelUid uid => exact replying_congr h rfl rfl
  | accept route peer id p hproc hfree =>
    intro c ctx hctx hrep
    rw [RpcCallee.context?_accept] at hctx
    split at hctx
    · cases hctx
      cases hrep
    · obtain ⟨hcan, hacc⟩ := h c ctx hctx hrep
      refine ⟨hcan, ?_⟩
      show (s.accepted.insert id (s.nextContext peer)).lookup ctx.id = some c
      rw [Slots.Table.lookup_insert_eq, if_neg, hacc]
      -- Otherwise the request took the id of an invocation that is about to reply.
      rintro he
      rw [he] at hacc
      have hidle := hg (by rw [hproc]; rfl) hfree c hacc ctx hctx
      rw [hidle] at hrep
      cases hrep
  | cancel peer id c hadm hentry =>
    refine replying_modify (replying_congr h rfl rfl) fun ctx hctx hrep => ?_
    have hidle := not_replying_of_entry hk hentry hctx (hg hadm c hentry ctx hctx)
    exact absurd (hidle.symm.trans hrep) Bool.false_ne_true
  | cancelAll =>
    obtain ⟨_, ha, _, hctxs⟩ := s.cancelAll_spec
    intro c ctx' hctx' hrep
    rw [hctxs] at hctx'
    obtain ⟨ctx, hctx, rfl⟩ := Option.map_eq_some_iff.mp hctx'
    rw [ha]
    by_cases hmem : c ∈ s.runningRequests.values
    · obtain ⟨id, hentry⟩ := Slots.Table.mem_values.mp hmem
      have hidle := not_replying_of_entry hk hentry hctx (hg c hmem ctx hctx)
      rw [if_pos hmem] at hrep
      exact absurd (hidle.symm.trans hrep) Bool.false_ne_true
    · rw [if_neg hmem] at hrep ⊢
      exact h c ctx hctx hrep
  | value c ctx value hctx hsend =>
    exact replying_modify (replying_congr h rfl rfl) fun ctx1 hctx1 hrep => h c ctx1 hctx1 hrep
  | handlerError c ctx errorMsg hctx hsend => exact hg.elim
  | ended c ctx outcome hctx hp => exact replying_setPhase h fun _ => rfl
  | erased c c' ctx hctx hp hentry =>
    have hown : c' = c := hg.1 ctx hctx hp c' hentry
    subst hown
    refine replying_modify (replying_congr h rfl rfl) fun ctx1 hctx1 _ => ?_
    cases hctx.symm.trans hctx1
    obtain ⟨ctx2, hctx2, _, hcan, _⟩ := hk.entry ctx.id c' hentry
    cases hctx.symm.trans hctx2
    exact ⟨hcan, hk.last ctx.id c' hentry⟩
  | notFound c ctx hctx hp hentry => exact replying_setPhase h fun _ => rfl
  | threw c ctx what hctx hp =>
    refine replying_modify h fun ctx1 hctx1 _ => ?_
    rw [hctx] at hctx1
    cases hctx1
    have hcan := hg.2 ctx hctx (by simp [RpcRequestContext.threwException, hp])
    have hrun : ctx.isRunning = true := by simp [RpcRequestContext.isRunning, hp]
    exact ⟨hcan, hk.last ctx.id c (hlive c ctx hctx hrun hcan)⟩
  | threwOther c ctx hctx hp => exact replying_setPhase h fun _ => rfl
  | completed c ctx hctx hp hsend =>
    exact replying_setPhase (replying_congr h rfl rfl) fun _ => rfl
  | failed c ctx what hctx hp hsend =>
    exact replying_setPhase (replying_congr h rfl rfl) fun _ => rfl
  | completeFailed c ctx what fails hctx hp =>
    refine replying_modify h fun ctx1 hctx1 _ => ?_
    rw [hctx] at hctx1
    cases hctx1
    exact h c ctx hctx (by simp [RpcRequestContext.isReplying, hp])
  | errorFailed c ctx what fails hctx hp => exact replying_setPhase h fun _ => rfl

/-! ## How many messages went out -/

theorem terminalsOf_emit (s : RpcCallee) (c c' : ContextRef) (id : UInt16) (body : Reply)
    (reliability : PacketReliability) : (s.emit c id body reliability).terminalsOf c' =
      s.terminalsOf c' + if c = c' ∧ body.isTerminal = true then 1 else 0 := by
  unfold RpcCallee.terminalsOf RpcCallee.emit
  rw [List.countP_append, List.countP_singleton]
  simp

/-- A step that sends no terminal and finishes nobody's phase backwards. -/
theorem sentOnce_keep {s s' : RpcCallee} (h : SentOnce s)
    (hsent : ∀ c, s'.terminalsOf c = s.terminalsOf c)
    (hfin : ∀ c ctx, s.context? c = some ctx → ctx.phase = .finished →
      ∃ ctx', s'.context? c = some ctx' ∧ ctx'.phase = .finished) : SentOnce s' := by
  constructor
  · intro c hc
    rw [hsent]
    refine h.unsent c fun ctx hctx hp => ?_
    obtain ⟨ctx', hctx', hp'⟩ := hfin c ctx hctx hp
    exact hc ctx' hctx' hp'
  · intro c
    rw [hsent]
    exact h.once c

theorem sentOnce_modify {s : RpcCallee} {c : ContextRef}
    {f : RpcRequestContext → RpcRequestContext} (h : SentOnce s)
    (hf : ∀ ctx, s.context? c = some ctx → ctx.phase = .finished → (f ctx).phase = .finished) :
    SentOnce (s.modify c f) := by
  refine sentOnce_keep h (fun _ => rfl) fun c' ctx hctx hp => ?_
  rw [RpcCallee.context?_modify]
  by_cases hc : c = c'
  · subst hc
    rw [if_pos rfl, hctx]
    exact ⟨f ctx, rfl, hf ctx hctx hp⟩
  · rw [if_neg hc]
    exact ⟨ctx, hctx, hp⟩

theorem sentOnce_congr {s s' : RpcCallee} (h : SentOnce s) (hc : s'.contexts = s.contexts)
    (hs : s'.sent = s.sent) : SentOnce s' := by
  refine sentOnce_keep h (fun c => ?_) fun c ctx hctx hp => ⟨ctx, ?_, hp⟩
  · unfold RpcCallee.terminalsOf
    rw [hs]
  · unfold RpcCallee.context? at hctx ⊢
    rw [hc]
    exact hctx

/-- The last message of a context that has not finished. -/
theorem sentOnce_last {s : RpcCallee} {c : ContextRef} {ctx : RpcRequestContext} {id : UInt16}
    {body : Reply} {reliability : PacketReliability} (h : SentOnce s)
    (hctx : s.context? c = some ctx) (hp : ctx.phase ≠ .finished) :
    SentOnce ((s.emit c id body reliability).setPhase c .finished) := by
  have hzero : s.terminalsOf c = 0 := by
    refine h.unsent c fun ctx1 hctx1 => ?_
    cases hctx.symm.trans hctx1
    exact hp
  have hcount : ∀ c', ((s.emit c id body reliability).setPhase c .finished).terminalsOf c' =
      s.terminalsOf c' + if c = c' ∧ body.isTerminal = true then 1 else 0 :=
    fun c' => terminalsOf_emit s c c' id body reliability
  constructor
  · intro c' hc'
    rw [hcount]
    by_cases hcc : c = c'
    · subst hcc
      refine absurd rfl (hc' { ctx with phase := .finished } ?_)
      unfold RpcCallee.setPhase
      rw [RpcCallee.context?_modify, if_pos rfl]
      show (s.context? c).map _ = _
      rw [hctx]
      rfl
    · rw [if_neg (fun hand => hcc hand.1), Nat.add_zero]
      refine h.unsent c' fun ctx' hctx' => hc' ctx' ?_
      unfold RpcCallee.setPhase
      rw [RpcCallee.context?_modify, if_neg hcc]
      exact hctx'
  · intro c'
    rw [hcount]
    split
    · next hand => rw [← hand.1, hzero]
    · exact h.once c'

theorem sentOnce_step {s s' : RpcCallee} {a : RpcCallee.Action} (h : SentOnce s)
    (hg : SettlesCurrent s a) (hs : RpcCallee.step s a = some s') : SentOnce s' := by
  cases step_cases hs with
  | idle => exact h
  | sceneState connected => exact sentOnce_congr h rfl rfl
  | peers connectedPeers => exact sentOnce_congr h rfl rfl
  | channelUid uid => exact sentOnce_congr h rfl rfl
  | accept route peer id p hproc hfree =>
    refine sentOnce_keep h (fun _ => rfl) fun c ctx hctx hp => ⟨ctx, ?_, hp⟩
    rw [RpcCallee.context?_accept, if_neg, hctx]
    rintro rfl
    rw [RpcCallee.context?_nextContext] at hctx
    cases hctx
  | cancel peer id c hadm hentry =>
    exact sentOnce_modify (sentOnce_congr h rfl rfl) fun _ _ hp => hp
  | cancelAll =>
    obtain ⟨_, _, hsent, hctxs⟩ := s.cancelAll_spec
    refine sentOnce_keep h (fun c => ?_) fun c ctx hctx hp => ?_
    · unfold RpcCallee.terminalsOf
      rw [hsent]
    · rw [hctxs, hctx]
      refine ⟨_, rfl, ?_⟩
      split
      · exact hp
      · exact hp
  | value c ctx value hctx hsend =>
    refine sentOnce_modify (sentOnce_keep h (fun c' => ?_) fun c' ctx' hctx' hp => ?_)
      fun _ _ hp => hp
    · rw [terminalsOf_emit, if_neg, Nat.add_zero]
      rintro ⟨_, ht⟩
      cases ht
    · exact ⟨ctx', hctx', hp⟩
  | handlerError c ctx errorMsg hctx hsend => exact hg.elim
  | ended c ctx outcome hctx hp =>
    refine sentOnce_modify h fun ctx1 hctx1 hfin => ?_
    cases hctx.symm.trans hctx1
    rw [hp] at hfin
    cases hfin
  | erased c c' ctx hctx hp hentry =>
    refine sentOnce_modify (sentOnce_congr h rfl rfl) fun ctx1 hctx1 hfin => ?_
    cases hctx.symm.trans hctx1
    simp [RpcRequestContext.returned, hfin] at hp
  | notFound c ctx hctx hp hentry => exact sentOnce_modify h fun _ _ _ => rfl
  | threw c ctx what hctx hp =>
    refine sentOnce_modify h fun ctx1 hctx1 hfin => ?_
    cases hctx.symm.trans hctx1
    rw [hp] at hfin
    cases hfin
  | threwOther c ctx hctx hp => exact sentOnce_modify h fun _ _ _ => rfl
  | completed c ctx hctx hp hsend => exact sentOnce_last h hctx (by simp [hp])
  | failed c ctx what hctx hp hsend => exact sentOnce_last h hctx (by simp [hp])
  | completeFailed c ctx what fails hctx hp =>
    refine sentOnce_modify h fun ctx1 hctx1 hfin => ?_
    cases hctx.symm.trans hctx1
    rw [hp] at hfin
    cases hfin
  | errorFailed c ctx what fails hctx hp => exact sentOnce_modify h fun _ _ _ => rfl

/-! ## Runs -/

theorem erasesOwn_of_settlesCurrent (s : RpcCallee) (a : RpcCallee.Action)
    (h : SettlesCurrent s a) : ErasesOwn s a := by
  cases a with
  | continuation c => exact h.1
  | _ => trivial

/-- What every run under the condition keeps. -/
structure TerminalInv (s : RpcCallee) : Prop where
  keyed : Keyed s
  live : LiveKept s
  replying : ReplyingCurrent s
  sentOnce : SentOnce s

theorem terminalInv_step {s s' : RpcCallee} {a : RpcCallee.Action} (h : TerminalInv s)
    (hg : SettlesCurrent s a) (hs : RpcCallee.step s a = some s') : TerminalInv s' where
  keyed := keyed_step h.keyed hs
  live := liveKept_step h.live (erasesOwn_of_settlesCurrent s a hg) hs
  replying := replying_step h.replying h.keyed h.live hg hs
  sentOnce := sentOnce_step h.sentOnce hg hs

theorem terminalInv_init (procedures : List Procedure) :
    TerminalInv (RpcCallee.init procedures) where
  keyed := keyed_init procedures
  live := liveKept_init procedures
  replying := fun _ _ hctx => by cases hctx
  sentOnce := ⟨fun _ _ => rfl, fun _ => Nat.zero_le 1⟩

theorem terminalInv_reachable {procedures : List Procedure} {s : RpcCallee}
    (h : Lts.Reachable RpcCallee.step SettlesCurrent (RpcCallee.init procedures) s) :
    TerminalInv s :=
  h.invariant (terminalInv_init procedures) fun _ _ _ hi hg hs => terminalInv_step hi hg hs

end CalleeTerminalLemmas

open CalleeTerminalLemmas

/-! ## Main results -/

/-- The context is the one last accepted under the id, and was not cancelled. -/
def AcceptedUnder (s : RpcCallee) (id : UInt16) (c : ContextRef) : Prop :=
  s.accepted.lookup id = some c ∧
    ∃ ctx : RpcRequestContext, s.context? c = some ctx ∧ ctx.canceled = false

/-- No invocation has sent two terminals, and the next step sends one only for the invocation
accepted under its id. -/
def TerminalsCurrent (G : RpcCallee → RpcCallee.Action → Prop) (s : RpcCallee) : Prop :=
  (∀ c : ContextRef, s.terminalsOf c ≤ 1) ∧
  ∀ (a : RpcCallee.Action) (s' : RpcCallee), G s a → RpcCallee.step s a = some s' →
    ∀ m ∈ s'.sent.drop s.sent.length, m.body.isTerminal = true → AcceptedUnder s m.id m.context

/-- In every run under the condition, every terminal is sent for the invocation last accepted
under its id, which was not cancelled, and no invocation sends two. -/
theorem callee_terminals_current {procedures : List Procedure} {s : RpcCallee}
    (h : Lts.Reachable RpcCallee.step SettlesCurrent (RpcCallee.init procedures) s) :
    TerminalsCurrent SettlesCurrent s := by
  have hi := terminalInv_reachable h
  refine ⟨hi.sentOnce.once, fun a s' hg hs m hm ht => ?_⟩
  have none_new : ∀ {l : List Message}, l = s.sent → m ∉ l.drop s.sent.length := by
    rintro l rfl
    simp
  have one_new : ∀ {m' : Message}, m ∈ (s.sent ++ [m']).drop s.sent.length → m = m' := by
    intro m' hm'
    rw [List.drop_left, List.mem_singleton] at hm'
    exact hm'
  cases step_cases hs with
  | cancelAll => exact absurd hm (none_new s.cancelAll_spec.2.2.1)
  | value c ctx value hctx hsend =>
    cases one_new hm
    cases ht
  | handlerError c ctx errorMsg hctx hsend => exact hg.elim
  | completed c ctx hctx hp hsend =>
    cases one_new hm
    obtain ⟨hcan, hacc⟩ := hi.replying c ctx hctx (by simp [RpcRequestContext.isReplying, hp])
    exact ⟨hacc, ctx, hctx, hcan⟩
  | failed c ctx what hctx hp hsend =>
    cases one_new hm
    obtain ⟨hcan, hacc⟩ := hi.replying c ctx hctx (by simp [RpcRequestContext.isReplying, hp])
    exact ⟨hacc, ctx, hctx, hcan⟩
  | _ => exact absurd hm (none_new rfl)

instance : ∀ (s : RpcCallee) (a : RpcCallee.Action), Decidable (SettlesCurrent s a)
  | s, .request route peer id =>
    inferInstanceAs (Decidable ((s.procedure? route peer).isSome = true →
      s.runningRequests.lookup id = none → ∀ c ∈ s.accepted.lookup id,
        ∀ ctx ∈ s.context? c, ctx.isReplying = false))
  | s, .cancel peer id => inferInstanceAs (Decidable (MessageOriginFilter.host.admits peer = true →
      ∀ c ∈ s.runningRequests.lookup id, ∀ ctx ∈ s.context? c, ctx.isFailing = false))
  | s, .cancelAll => inferInstanceAs (Decidable (∀ c ∈ s.runningRequests.values,
      ∀ ctx ∈ s.context? c, ctx.isFailing = false))
  | s, .continuation c => inferInstanceAs (Decidable (ErasesOwn s (.continuation c) ∧
      ∀ ctx ∈ s.context? c, ctx.threwException = true → ctx.canceled = false))
  | _, .sendError .. => inferInstanceAs (Decidable False)
  | _, .sendValue .. | _, .handlerEnds .. | _, .sendComplete .. | _, .reportError ..
  | _, .sceneState _ | _, .peers _ | _, .channelUid _ => inferInstanceAs (Decidable True)

/-- A cancelled handler is followed by another one under its id, which completes. -/
def exReused : List RpcCallee.Action :=
  [.request "echo" .host 1, .cancel .host 1, .handlerEnds (exHost 0) .canceled,
    .continuation (exHost 0), .request "echo" .host 1, .handlerEnds (exHost 1) .success,
    .continuation (exHost 1), .sendComplete (exHost 1) none]

theorem callee_terminals_current_reused :
    ∃ s : RpcCallee, s.terminalsOf (exHost 1) = 1 ∧ TerminalsCurrent SettlesCurrent s := by
  obtain ⟨s, hs, hsent⟩ := Lts.Reachable.of_exec RpcCallee.step SettlesCurrent
    (RpcCallee.init exProcedures) exReused
    (fun s => s.terminalsOf (exHost 1) == 1) (by decide)
  exact ⟨s, by simpa using hsent, callee_terminals_current hs⟩

/-- The cancelled handler ends only after its id was accepted again. -/
def exStale : List RpcCallee.Action :=
  [.request "echo" .host 1, .cancel .host 1, .request "echo" .host 1,
    .handlerEnds (exHost 0) .success, .continuation (exHost 0)]

/-- Without the condition a cancelled invocation completes the one that has its id now. -/
theorem callee_terminal_of_another : ¬ ∀ (procedures : List Procedure) (s : RpcCallee),
    Lts.Reachable RpcCallee.step Lts.anyStep (RpcCallee.init procedures) s →
    TerminalsCurrent Lts.anyStep s := by
  intro hall
  obtain ⟨s, hs, hp⟩ := Lts.Reachable.of_exec RpcCallee.step Lts.anyStep
    (RpcCallee.init exProcedures) exStale
    (fun s => (s.step (.sendComplete (exHost 0) none)).any fun s' =>
      (s'.sent.drop s.sent.length).any fun m => m.body.isTerminal && m.context == exHost 0 &&
        (s.context? (exHost 0)).any (·.canceled)) (by decide)
  obtain ⟨s', hs', hp⟩ := (Option.any_eq_true _ _).mp hp
  obtain ⟨m, hm, hp⟩ := List.any_eq_true.mp hp
  simp only [Bool.and_eq_true, beq_iff_eq] at hp
  obtain ⟨⟨ht, hc⟩, hp⟩ := hp
  obtain ⟨ctx, hctx, hcan⟩ := (Option.any_eq_true _ _).mp hp
  obtain ⟨_, ctx', hctx', hcan'⟩ := (hall exProcedures s hs).2 _ s' trivial hs' m hm ht
  rw [hc, hctx] at hctx'
  cases hctx'
  rw [hcan] at hcan'
  cases hcan'

end Stormancer.Rpc

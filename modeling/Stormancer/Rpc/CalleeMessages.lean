import Stormancer.Lib.Run
import Stormancer.Rpc.Callee

/-!
# The messages that go out for one context

Results:
1. `messages_reachable`: in every run each message has the id of its context and the reliability
   that its body and the `ordered` flag say, and the flag of each COMPLETE tells whether a value
   was sent before it.
2. `reachable_values_complete`: whatever the values and the channel uids are, some run sends them
   with these uids and completes.
-/

namespace Stormancer.Rpc

open RpcCallee (StepCase step_cases)

/-! ## Definitions -/

def Reply.isValue : Reply → Bool
  | .next _ => true
  | .error _ => false
  | .complete _ => false

/-- The reliability of a message for the context. -/
def RpcRequestContext.replyReliability (ctx : RpcRequestContext) : Reply → PacketReliability
  | .next _ => ctx.reliability
  | .error _ => .reliableOrdered
  | .complete _ => .reliableOrdered

/-- The messages sent for the context, in order. -/
def RpcCallee.messagesOf (s : RpcCallee) (c : ContextRef) : List Message :=
  s.sent.filter fun m => m.context == c

def RpcCallee.repliesOf (s : RpcCallee) (c : ContextRef) : List Reply :=
  (s.messagesOf c).map (·.body)

/-- The bodies of the messages sent for the context, with the channel uids they went out with. -/
def RpcCallee.sendsOf (s : RpcCallee) (c : ContextRef) : List (ChannelUid × Reply) :=
  (s.messagesOf c).map fun m => (m.channelUid, m.body)

/-- A value that is sent with a channel uid. -/
def nextOn (v : ChannelUid × List UInt8) : ChannelUid × Reply := (v.1, .next v.2)

/-- What holds of the messages in every run. -/
structure MessagesInv (s : RpcCallee) : Prop where
  known : ∀ m ∈ s.sent, ∃ ctx : RpcRequestContext, s.context? m.context = some ctx ∧
    m.id = ctx.id ∧ m.reliability = ctx.replyReliability m.body
  flag : ∀ (c : ContextRef) (ctx : RpcRequestContext), s.context? c = some ctx →
    ctx.msgSent = (s.repliesOf c).any Reply.isValue
  completes : ∀ (c : ContextRef) (pre post : List Reply) (b : Bool),
    s.repliesOf c = pre ++ .complete b :: post → b = pre.any Reply.isValue

namespace CalleeMessageLemmas

/-! ## One message -/

theorem messagesOf_emit (s : RpcCallee) (c c' : ContextRef) (id : UInt16) (body : Reply)
    (reliability : PacketReliability) : (s.emit c id body reliability).messagesOf c' =
      if c = c' then s.messagesOf c' ++ [⟨c, .host, id, body, reliability, s.channelUid⟩]
      else s.messagesOf c' := by
  unfold RpcCallee.messagesOf RpcCallee.emit
  dsimp only
  rw [List.filter_append]
  split
  · next hc =>
    rw [List.filter_cons_of_pos (by simpa using hc)]
    rfl
  · next hc =>
    rw [List.filter_cons_of_neg (by simpa using hc)]
    simp

theorem repliesOf_emit (s : RpcCallee) (c c' : ContextRef) (id : UInt16) (body : Reply)
    (reliability : PacketReliability) : (s.emit c id body reliability).repliesOf c' =
      if c = c' then s.repliesOf c' ++ [body] else s.repliesOf c' := by
  unfold RpcCallee.repliesOf
  rw [messagesOf_emit]
  split <;> simp

theorem sendsOf_emit (s : RpcCallee) (c : ContextRef) (id : UInt16) (body : Reply)
    (reliability : PacketReliability) : (s.emit c id body reliability).sendsOf c =
      s.sendsOf c ++ [(s.channelUid, body)] := by
  unfold RpcCallee.sendsOf
  rw [messagesOf_emit, if_pos rfl]
  simp

theorem map_snd_sendsOf (s : RpcCallee) (c : ContextRef) :
    (s.sendsOf c).map (·.2) = s.repliesOf c := by
  unfold RpcCallee.sendsOf RpcCallee.repliesOf
  rw [List.map_map]
  rfl

theorem map_snd_nextOn (values : List (ChannelUid × List UInt8)) :
    (values.map nextOn).map (·.2) = values.map fun v => Reply.next v.2 := by
  rw [List.map_map]
  rfl

/-- Contexts may change what the messages do not depend on. -/
theorem messages_keep {s s' : RpcCallee} (h : MessagesInv s) (hs : s'.sent = s.sent)
    (hkeep : ∀ c ctx, s.context? c = some ctx → ∃ ctx', s'.context? c = some ctx' ∧
      ctx'.id = ctx.id ∧ ctx'.ordered = ctx.ordered)
    (hback : ∀ c ctx', s'.context? c = some ctx' →
      ctx'.msgSent = (s.repliesOf c).any Reply.isValue) : MessagesInv s' := by
  have hrep : ∀ c, s'.repliesOf c = s.repliesOf c := by
    intro c
    unfold RpcCallee.repliesOf RpcCallee.messagesOf
    rw [hs]
  constructor
  · intro m hm
    rw [hs] at hm
    obtain ⟨ctx, hctx, hid, hrel⟩ := h.known m hm
    obtain ⟨ctx', hctx', hid', hord⟩ := hkeep m.context ctx hctx
    refine ⟨ctx', hctx', hid.trans hid'.symm, hrel.trans ?_⟩
    unfold RpcRequestContext.replyReliability RpcRequestContext.reliability
    rw [hord]
  · intro c ctx' hctx'
    rw [hrep]
    exact hback c ctx' hctx'
  · intro c pre post b hsplit
    rw [hrep] at hsplit
    exact h.completes c pre post b hsplit

theorem messages_modify {s : RpcCallee} {c : ContextRef}
    {f : RpcRequestContext → RpcRequestContext} (h : MessagesInv s)
    (hid : ∀ ctx, (f ctx).id = ctx.id) (hord : ∀ ctx, (f ctx).ordered = ctx.ordered)
    (hmsg : ∀ ctx, (f ctx).msgSent = ctx.msgSent) : MessagesInv (s.modify c f) := by
  refine messages_keep h rfl (fun c' ctx hctx => ?_) fun c' ctx' hctx' => ?_
  · rw [RpcCallee.context?_modify, hctx]
    split
    · exact ⟨f ctx, rfl, hid ctx, hord ctx⟩
    · exact ⟨ctx, rfl, rfl, rfl⟩
  · rw [RpcCallee.context?_modify] at hctx'
    split at hctx'
    · obtain ⟨ctx, hctx, rfl⟩ := Option.map_eq_some_iff.mp hctx'
      rw [hmsg]
      exact h.flag c' ctx hctx
    · exact h.flag c' ctx' hctx'

/-- A message goes out, and the context remembers it if it is a value. -/
theorem messages_emit {s s' : RpcCallee} {c : ContextRef} {ctx ctx' : RpcRequestContext}
    {body : Reply} (h : MessagesInv s) (hctx : s.context? c = some ctx)
    (hs : s'.sent = (s.emit c ctx.id body (ctx.replyReliability body)).sent)
    (hc : s'.context? c = some ctx') (hid : ctx'.id = ctx.id) (hord : ctx'.ordered = ctx.ordered)
    (hmsg : ctx'.msgSent = (ctx.msgSent || body.isValue))
    (hother : ∀ c', c' ≠ c → s'.context? c' = s.context? c')
    (hbody : ∀ b, body = .complete b → b = ctx.msgSent) : MessagesInv s' := by
  have hrep : ∀ c', s'.repliesOf c' =
      if c = c' then s.repliesOf c' ++ [body] else s.repliesOf c' := by
    intro c'
    rw [← repliesOf_emit s c c' ctx.id body (ctx.replyReliability body)]
    unfold RpcCallee.repliesOf RpcCallee.messagesOf
    rw [hs]
  have hrel : ∀ reply, ctx'.replyReliability reply = ctx.replyReliability reply := by
    intro reply
    unfold RpcRequestContext.replyReliability RpcRequestContext.reliability
    rw [hord]
  constructor
  · intro m hm
    rw [hs] at hm
    rcases List.mem_append.mp hm with hm | hm
    · obtain ⟨ctx1, hctx1, hid1, hrel1⟩ := h.known m hm
      by_cases hmc : m.context = c
      · rw [hmc, hctx] at hctx1
        cases hctx1
        exact ⟨ctx', by rw [hmc, hc], hid1.trans hid.symm, hrel1.trans (hrel _).symm⟩
      · exact ⟨ctx1, by rw [hother _ hmc, hctx1], hid1, hrel1⟩
    · rw [List.mem_singleton] at hm
      subst hm
      exact ⟨ctx', hc, hid.symm, (hrel body).symm⟩
  · intro c' ctx1 hctx1
    rw [hrep]
    split
    · next hcc =>
      subst hcc
      rw [hc] at hctx1
      cases hctx1
      rw [hmsg, List.any_append, h.flag c ctx hctx]
      simp
    · next hcc =>
      rw [hother c' (Ne.symm hcc)] at hctx1
      exact h.flag c' ctx1 hctx1
  · intro c' pre post b hsplit
    rw [hrep] at hsplit
    split at hsplit
    · next hcc =>
      subst hcc
      -- The COMPLETE is the new message, or was there before.
      rcases List.eq_nil_or_concat post with rfl | ⟨post', last, rfl⟩
      · obtain ⟨hpre, hlast⟩ := List.append_inj' hsplit rfl
        cases hlast
        rw [← hpre, hbody b rfl]
        exact h.flag c ctx hctx
      · rw [List.concat_eq_append, ← List.cons_append, ← List.append_assoc] at hsplit
        exact h.completes c pre post' b (List.append_inj' hsplit rfl).1
    · exact h.completes c' pre post b hsplit

theorem messages_step {s s' : RpcCallee} {a : RpcCallee.Action} (h : MessagesInv s)
    (hs : RpcCallee.step s a = some s') : MessagesInv s' := by
  have modified : ∀ {c c' : ContextRef} {f : RpcRequestContext → RpcRequestContext}
      {t : RpcCallee}, c' ≠ c → (t.modify c f).context? c' = t.context? c' := by
    intro c c' f t hne
    rw [RpcCallee.context?_modify, if_neg (Ne.symm hne)]
  have changed : ∀ {c : ContextRef} {ctx : RpcRequestContext} {t : RpcCallee}
      (f : RpcRequestContext → RpcRequestContext), t.context? c = some ctx →
      (t.modify c f).context? c = some (f ctx) := by
    intro c ctx t f hctx
    rw [RpcCallee.context?_modify, if_pos rfl, hctx]
    rfl
  cases step_cases hs with
  | idle => exact h
  | sceneState connected => exact ⟨h.known, h.flag, h.completes⟩
  | peers connectedPeers => exact ⟨h.known, h.flag, h.completes⟩
  | channelUid uid => exact ⟨h.known, h.flag, h.completes⟩
  | accept route peer id p hproc hfree =>
    have old : ∀ c ctx, s.context? c = some ctx →
        (s.accept peer id p.ordered).context? c = some ctx := by
      intro c ctx hctx
      rw [RpcCallee.context?_accept, if_neg, hctx]
      rintro rfl
      rw [RpcCallee.context?_nextContext] at hctx
      cases hctx
    refine messages_keep h rfl (fun c ctx hctx => ⟨ctx, old c ctx hctx, rfl, rfl⟩) ?_
    intro c ctx' hctx'
    rw [RpcCallee.context?_accept] at hctx'
    split at hctx'
    · next hc =>
      cases hctx'
      -- Nothing was sent for a context that did not exist.
      have hnone : s.messagesOf c = [] := by
        unfold RpcCallee.messagesOf
        rw [List.filter_eq_nil_iff]
        intro m hm hmc
        obtain ⟨ctx, hctx, _⟩ := h.known m hm
        rw [beq_iff_eq.mp hmc, hc, RpcCallee.context?_nextContext] at hctx
        cases hctx
      unfold RpcCallee.repliesOf
      rw [hnone]
      rfl
    · exact h.flag c ctx' hctx'
  | cancel peer id c hadm hentry =>
    exact messages_modify ⟨h.known, h.flag, h.completes⟩ (fun _ => rfl) (fun _ => rfl) fun _ => rfl
  | cancelAll =>
    obtain ⟨_, _, hsent, hctxs⟩ := s.cancelAll_spec
    refine messages_keep h hsent (fun c ctx hctx => ?_) fun c ctx' hctx' => ?_
    · rw [hctxs, hctx]
      refine ⟨_, rfl, ?_⟩
      split
      · exact ⟨rfl, rfl⟩
      · exact ⟨rfl, rfl⟩
    · rw [hctxs] at hctx'
      obtain ⟨ctx, hctx, rfl⟩ := Option.map_eq_some_iff.mp hctx'
      rw [← h.flag c ctx hctx]
      split
      · rfl
      · rfl
  | value c ctx value hctx hsend =>
    have hctx' := changed (t := s.emit c ctx.id (.next value) ctx.reliability)
      (fun ctx => { ctx with msgSent := true }) hctx
    refine messages_emit h hctx rfl hctx' rfl rfl ?_ ?_ nofun
    · simp [Reply.isValue]
    · exact fun c' hc' => modified hc'
  | handlerError c ctx errorMsg hctx hsend =>
    refine messages_emit h hctx rfl hctx rfl rfl ?_ ?_ nofun
    · simp [Reply.isValue]
    · exact fun _ _ => rfl
  | completed c ctx hctx hp hsend =>
    have hctx' := changed (t := s.emit c ctx.id (.complete ctx.msgSent) .reliableOrdered)
      (fun ctx => { ctx with phase := .finished }) hctx
    refine messages_emit h hctx rfl hctx' rfl rfl ?_ ?_ ?_
    · simp [Reply.isValue]
    · exact fun c' hc' => modified hc'
    · rintro b hb
      cases hb
      rfl
  | failed c ctx what hctx hp hsend =>
    have hctx' := changed (t := s.emit c ctx.id (.error what) .reliableOrdered)
      (fun ctx => { ctx with phase := .finished }) hctx
    refine messages_emit h hctx rfl hctx' rfl rfl ?_ ?_ nofun
    · simp [Reply.isValue]
    · exact fun c' hc' => modified hc'
  | ended c ctx outcome hctx hp =>
    exact messages_modify h (fun _ => rfl) (fun _ => rfl) fun _ => rfl
  | erased c c' ctx hctx hp hentry =>
    exact messages_modify ⟨h.known, h.flag, h.completes⟩ (fun _ => rfl) (fun _ => rfl) fun _ => rfl
  | notFound c ctx hctx hp hentry =>
    exact messages_modify h (fun _ => rfl) (fun _ => rfl) fun _ => rfl
  | threw c ctx what hctx hp => exact messages_modify h (fun _ => rfl) (fun _ => rfl) fun _ => rfl
  | threwOther c ctx hctx hp => exact messages_modify h (fun _ => rfl) (fun _ => rfl) fun _ => rfl
  | completeFailed c ctx what fails hctx hp =>
    exact messages_modify h (fun _ => rfl) (fun _ => rfl) fun _ => rfl
  | errorFailed c ctx what fails hctx hp =>
    exact messages_modify h (fun _ => rfl) (fun _ => rfl) fun _ => rfl

theorem messages_reachable {G : RpcCallee → RpcCallee.Action → Prop}
    {procedures : List Procedure} {s : RpcCallee}
    (h : Lts.Reachable RpcCallee.step G (RpcCallee.init procedures) s) : MessagesInv s := by
  refine h.invariant ?_ fun _ _ _ hi _ hs => messages_step hi hs
  constructor
  · intro m hm
    cases hm
  · intro c ctx hctx
    cases hctx
  · intro c pre post b hsplit
    cases pre with
    | nil => cases hsplit
    | cons => cases hsplit

/-! ## A run that sends given values -/

/-- The handler of `c` sends the values, one after the other, each with its channel uid. -/
theorem run_values {t : RpcCallee} {c : ContextRef} {ctx : RpcRequestContext}
    (hctx : t.context? c = some ctx) (hconn : t.connected = true)
    (values : List (ChannelUid × List UInt8)) :
    ∃ t', Lts.Run RpcCallee.step Lts.anyStep t
        (values.flatMap fun v => [.channelUid v.1, .sendValue c v.2 none]) t' ∧
      t'.connected = true ∧ t'.runningRequests = t.runningRequests ∧
      (∃ ctx', t'.context? c = some ctx' ∧ ctx'.id = ctx.id ∧ ctx'.ordered = ctx.ordered ∧
        ctx'.phase = ctx.phase) ∧
      t'.sendsOf c = t.sendsOf c ++ values.map nextOn := by
  induction values generalizing t ctx with
  | nil => exact ⟨t, Lts.Run.nil, hconn, rfl, ⟨ctx, hctx, rfl, rfl, rfl⟩, by simp⟩
  | cons v values ih =>
    let t1 := { t with channelUid := v.1 }
    let t2 := (t1.emit c ctx.id (.next v.2) ctx.reliability).modify c
      fun ctx => { ctx with msgSent := true }
    have hctx1 : t1.context? c = some ctx := hctx
    have hconn1 : t1.connected = true := hconn
    have hstep : RpcCallee.step t1 (.sendValue c v.2 none) = some t2 := by
      simp [RpcCallee.step, RpcCallee.sendValue, hctx1, RpcCallee.send, hconn1, t2]
    have hctx2 : t2.context? c = some { ctx with msgSent := true } := by
      show (RpcCallee.modify _ c _).context? c = _
      rw [RpcCallee.context?_modify, if_pos rfl]
      show (t.context? c).map _ = _
      rw [hctx]
      rfl
    have hsends2 : t2.sendsOf c = t.sendsOf c ++ [nextOn v] := sendsOf_emit t1 c _ _ _
    obtain ⟨t', hr, hconn', hrun', hctx', hsends'⟩ := ih hctx2 hconn
    refine ⟨t', ?_, hconn', hrun', hctx', ?_⟩
    · exact ((Lts.Run.single trivial rfl).snoc trivial hstep).append hr
    · rw [hsends', hsends2, List.append_assoc]
      rfl

/-- A procedure that answers in order, or not. -/
def echoProcedures (ordered : Bool) : List Procedure := [⟨"echo", .all, ordered⟩]

/-- Some run sends the values for a request with id 1 and completes it, with these uids. -/
theorem reachable_values_complete (values : List (ChannelUid × List UInt8)) (last : ChannelUid)
    (ordered : Bool) :
    ∃ (t : RpcCallee) (c : ContextRef) (ctx : RpcRequestContext) (b : Bool),
      Lts.Reachable RpcCallee.step Lts.anyStep (RpcCallee.init (echoProcedures ordered)) t ∧
      t.context? c = some ctx ∧ ctx.ordered = ordered ∧ ctx.id = 1 ∧
      t.sendsOf c = values.map nextOn ++ [(last, .complete b)] := by
  let t0 := RpcCallee.init (echoProcedures ordered)
  let c : ContextRef := ⟨.host, 0⟩
  have hproc : t0.procedure? "echo" .host = some ⟨"echo", .all, ordered⟩ := by
    have hadm : MessageOriginFilter.all.admits .host = true := by decide
    simp [t0, RpcCallee.procedure?, RpcCallee.init, echoProcedures, hadm, RpcCallee.knows]
  have h0 : RpcCallee.step t0 (.request "echo" .host 1) = some (t0.accept .host 1 ordered) := by
    simp only [RpcCallee.step, RpcCallee.request, hproc]
    rfl
  have hctx0 : (t0.accept .host 1 ordered).context? c =
      some (RpcRequestContext.create 1 ordered) := by
    rw [RpcCallee.context?_accept]
    exact if_pos rfl
  obtain ⟨t1, hr1, hconn1, hrun1, ⟨ctx1, hctx1, hid1, hord1, hph1⟩, hsends1⟩ :=
    run_values hctx0 rfl values
  -- The handler ends, its continuation finds the entry and sends COMPLETE.
  let t2 := t1.setPhase c (.ended .success)
  let ctx2 : RpcRequestContext := { ctx1 with phase := .ended .success }
  have h2 : RpcCallee.step t1 (.handlerEnds c .success) = some t2 := by
    simp [RpcCallee.step, RpcCallee.handlerEnds, hctx1, hph1, RpcRequestContext.create, t2]
  have hctx2 : t2.context? c = some ctx2 := by
    simp [t2, ctx2, RpcCallee.setPhase, hctx1]
  let t3 := { t2 with runningRequests := t2.runningRequests.erase ctx2.id }.setPhase c .completing
  let t4 := { t3 with channelUid := last }
  let ctx3 : RpcRequestContext := { ctx2 with phase := .completing }
  have hentry : t2.runningRequests.lookup ctx2.id = some c := by
    show t1.runningRequests.lookup ctx1.id = some c
    rw [hrun1, hid1]
    exact AList.lookup_insert _
  have h3 : RpcCallee.step t2 (.continuation c) = some t3 := by
    have hphase2 : ctx2.phase = .ended .success := rfl
    simp only [RpcCallee.step, RpcCallee.continuation, hctx2, hphase2, hentry, t3]
  have hctx3 : t3.context? c = some ctx3 := by
    show (RpcCallee.modify _ c _).context? c = some ctx3
    rw [RpcCallee.context?_modify, if_pos rfl]
    show (t2.context? c).map _ = _
    rw [hctx2]
    rfl
  have hctx4 : t4.context? c = some ctx3 := hctx3
  have h4 : RpcCallee.step t4 (.sendComplete c none) =
      some ((t4.emit c ctx3.id (.complete ctx3.msgSent) .reliableOrdered).setPhase c .finished) := by
    have hconn4 : t4.connected = true := hconn1
    simp [RpcCallee.step, RpcCallee.sendComplete, hctx4, ctx3, RpcCallee.send, hconn4]
  have hreach : Lts.Reachable RpcCallee.step Lts.anyStep t0 t4 :=
    ((((Lts.Reachable.start.next trivial h0).append hr1).next trivial h2).next trivial h3).next
      (a := .channelUid last) trivial rfl
  refine ⟨_, c, { ctx3 with phase := .finished }, ctx3.msgSent, hreach.next trivial h4, ?_, hord1,
    hid1, ?_⟩
  · show (RpcCallee.modify _ c _).context? c = _
    rw [RpcCallee.context?_modify, if_pos rfl]
    show (t4.context? c).map _ = _
    rw [hctx4]
    rfl
  · show (t4.emit c ctx3.id (.complete ctx3.msgSent) .reliableOrdered).sendsOf c = _
    rw [sendsOf_emit]
    show t1.sendsOf c ++ _ = _
    rw [hsends1]
    rfl

end CalleeMessageLemmas

end Stormancer.Rpc

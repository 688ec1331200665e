import Mathlib.Data.List.Permutation
import Stormancer.Lib.Delivery
import Stormancer.Rpc.CalleeMessages
import Stormancer.Rpc.CallerRecords

/-!
# From the handler's values to the observer

The handler of one invocation sends values and completes; the transport delivers the messages;
the caller works them off, between the steps of its other RPCs. The caller knows of the values
only what the flag of COMPLETE says: that there are some. So it completes the observer once
COMPLETE and one value have arrived.

Each message has the channel uid that was the one of `RPC_client` when it was sent.

Results:
1. `no_value_lost_iff`: the observer receives all values before the end, in every delivery that
   the transport allows and every run of the caller, exactly when the handler sends at most one
   value, or the procedure is ordered and the values go out on the channel of COMPLETE.
2. `two_values_lost`: two unordered values, of which the observer receives one.
-/

namespace Stormancer.Rpc

/-! ## Definitions -/

/-- The answer with this id that an action of the caller works off. -/
def RpcService.Action.answer? (id : UInt16) : RpcService.Action → Option Reply
  | .next id' packet _ => if id' = id then some (.next packet) else none
  | .error id' text => if id' = id then some (.error (text.getD "")) else none
  | .complete messageSent id' => if id' = id then some (.complete messageSent) else none
  | _ => none

def answersTo (id : UInt16) (as : List RpcService.Action) : List Reply :=
  as.filterMap (RpcService.Action.answer? id)

/-- The observer of `r` throws nothing, nobody unsubscribes it, and the scene stays. -/
def Undisturbed (r : Ref) (id : UInt16) : RpcService → RpcService.Action → Prop
  | _, .next id' _ thrown => id' = id → thrown = none
  | _, .unsubscribe r' => r' ≠ r
  | _, .cancelAllBegin _ => False
  | _, _ => True

/-- The checks of `rpcObservable` pass, and the request gets this id. -/
def Starts (s : RpcService) (route : String) (id : UInt16) : Prop :=
  (s.checkRoute route).isOk = true ∧ s.reserveId = some id ∧ s.connected = true

/-- The channel on which a message is ordered. -/
def Message.orderedOn (m : Message) : Option ChannelUid :=
  match m.reliability with
  | .reliable => none
  | .reliableOrdered => some m.channelUid

/-- Whatever the transport and the caller do with the messages of a handler that sent these
values and completed, with these channel uids, the observer receives no end before all values,
and when everything has arrived and was worked off it has received the end. -/
def NoValueLost (values : List (ChannelUid × Payload)) (last : ChannelUid) (ordered : Bool) :
    Prop :=
  ∀ (procedures : List Procedure) (t : RpcCallee) (c : ContextRef) (ctx : RpcRequestContext)
    (b : Bool) (arrived : List Message) (routes : List Route) (s₀ s : RpcService)
    (route : String) (payload : Payload) (as : List RpcService.Action) (q : RpcRequest),
    Lts.Reachable RpcCallee.step Lts.anyStep (RpcCallee.init procedures) t →
    t.context? c = some ctx → ctx.ordered = ordered →
    t.sendsOf c = values.map nextOn ++ [(last, .complete b)] →
    Delivery.Delivers Message.orderedOn (t.messagesOf c) arrived →
    Lts.Reachable RpcService.step Lts.anyStep (RpcService.init routes) s₀ →
    s₀.cancelAlls = [] → Starts s₀ route ctx.id →
    Lts.Run RpcService.step (Undisturbed s₀.heap.length ctx.id) (s₀.rpc route payload none) as s →
    answersTo ctx.id as <+: arrived.map (·.body) →
    s.heap[s₀.heap.length]? = some q →
    (Rx.Notification.completed ∈ q.observer.received →
      ∃ ws : List Payload, ws.Perm (values.map (·.2)) ∧
        q.observer.received = ws.map Rx.Notification.next ++ [Rx.Notification.completed]) ∧
    (answersTo ctx.id as = arrived.map (·.body) → s.continuation s₀.heap.length = none →
      Rx.Notification.completed ∈ q.observer.received)

namespace EndToEndLemmas

open CallerRecordLemmas CalleeMessageLemmas
open RpcService (modify_get isHeld_iff)

/-! ## What the caller knows of the answers -/

def Reply.value? : Reply → Option Payload
  | .next value => some value
  | .error _ => none
  | .complete _ => none

def valuesOf (replies : List Reply) : List Payload := replies.filterMap Reply.value?

/-- `waitingForDataTce` is set by a value, or by a COMPLETE that announces none. -/
def dataKnown (replies : List Reply) : Bool :=
  replies.any fun reply =>
    match reply with
    | .next _ => true
    | .error _ => false
    | .complete msgSent => !msgSent

/-- The number of COMPLETE messages. -/
def endings (replies : List Reply) : Nat :=
  replies.countP fun reply =>
    match reply with
    | .next _ => false
    | .error _ => false
    | .complete _ => true

/-- Once COMPLETE has arrived and the data is known, nothing is missing. -/
def Safe (replies : List Reply) : Prop :=
  ∀ pre, pre <+: replies → dataKnown pre = true → 0 < endings pre → pre = replies

/-- The request `r` after the answers `pre`, while the continuation has not completed it. -/
structure Waiting (r : Ref) (id : UInt16) (pre : List Reply) (s : RpcService) : Prop where
  keyed : TableKeyed s
  idle : s.cancelAlls = []
  entry : s.pendingRequests.lookup id = some r
  record : ∃ q : RpcRequest, s.heap[r]? = some q ∧ q.observer.isSubscribed = true ∧
    q.observer.received = (valuesOf pre).map .next ∧ q.waitingForDataTce = dataKnown pre ∧
    q.continuations = endings pre

/-- The observer was completed after the answers `pre`. -/
structure Done (r : Ref) (pre : List Reply) (s : RpcService) : Prop where
  known : dataKnown pre = true
  ending : 0 < endings pre
  record : ∃ q : RpcRequest, s.heap[r]? = some q ∧ q.observer.isSubscribed = false ∧
    q.observer.received = (valuesOf pre).map .next ++ [.completed]

/-! ## One step of the caller -/

theorem waiting_start {s : RpcService} {route : String} {id : UInt16} (hk : TableKeyed s)
    (hi : s.cancelAlls = []) (hs : Starts s route id) (payload : Payload) :
    Waiting s.heap.length id [] (s.rpc route payload none) := by
  obtain ⟨hroute, hid, hconn⟩ := hs
  have hrpc : s.rpc route payload none =
      { s.withRequest route id with
        sent := s.sent ++ [Outgoing.request route id payload] }.modify s.heap.length
          fun q => { q with tearsDown := true } := by
    unfold RpcService.rpc
    cases hok : s.checkRoute route with
    | error what =>
      rw [hok] at hroute
      cases hroute
    | ok u =>
      rw [hid]
      have hconn' : (s.withRequest route id).connected = true := hconn
      simp only [RpcService.sceneSend, hconn']
      rfl
  rw [hrpc]
  refine ⟨?_, hi, AList.lookup_insert _, ?_⟩
  · exact tableKeyed_keeps (tableKeyed_withRequest hk route id) (keeps_sent _ _ _)
  · refine ⟨{ RpcRequest.create route id with tearsDown := true }, ?_, rfl, rfl, rfl, rfl⟩
    rw [modify_get, if_pos rfl]
    show ((s.withRequest route id).heap[s.heap.length]?).map _ = _
    rw [withRequest_get_new]
    rfl

theorem waiting_apart {r : Ref} {id : UInt16} {pre : List Reply} {s s' : RpcService}
    {a : RpcService.Action} (h : Waiting r id pre s) (hs : s.step a = some s')
    (ha : Elsewhere r id a) : Waiting r id pre s' := by
  have hap := apart_step h.keyed h.idle h.entry ha hs
  refine ⟨tableKeyed_step h.keyed hs, hap.idle h.idle, hap.entry id h.entry, ?_⟩
  rw [hap.record]
  exact h.record

theorem waiting_next {r : Ref} {id : UInt16} {pre : List Reply} {s : RpcService}
    (h : Waiting r id pre s) (packet : Payload) :
    Waiting r id (pre ++ [.next packet]) (s.next id packet none) := by
  obtain ⟨q, hq, hsub, hrec, hwait, hcont⟩ := h.record
  have hnotify : s.notify r (·.onNext packet none) =
      s.modify r fun q => { q with observer := q.observer.accept packet } := by
    unfold RpcService.notify
    rw [hq]
    dsimp only
    -- The observer stays subscribed, so its teardown does not run.
    rw [if_neg]
    · rfl
    · show ¬ (q.observer.isSubscribed && !(q.observer.accept packet).isSubscribed) = true
      rw [Rx.Subscriber.accept_isSubscribed, hsub]
      nofun
  have hnext : s.next id packet none =
      (s.modify r fun q => { q with observer := q.observer.accept packet }).modify r
        fun q => { q with waitingForDataTce := true } := by
    unfold RpcService.next
    rw [h.entry]
    dsimp only
    rw [hnotify]
  refine ⟨tableKeyed_step h.keyed (a := .next id packet none) rfl, ?_, ?_, ?_⟩
  · rw [hnext]
    exact h.idle
  · rw [hnext]
    exact h.entry
  · rw [hnext, modify_get, if_pos rfl, modify_get, if_pos rfl, hq]
    refine ⟨_, rfl, ?_, ?_, ?_, ?_⟩
    · show (q.observer.accept packet).isSubscribed = true
      rw [Rx.Subscriber.accept_isSubscribed, hsub]
    · show (q.observer.accept packet).received = _
      rw [Rx.Subscriber.accept_received hsub, hrec]
      simp [valuesOf, Reply.value?]
    · simp [dataKnown]
    · show q.continuations = _
      rw [hcont]
      simp [endings]

theorem waiting_complete {r : Ref} {id : UInt16} {pre : List Reply} {s : RpcService}
    (h : Waiting r id pre s) (messageSent : Bool) :
    Waiting r id (pre ++ [.complete messageSent]) (s.complete messageSent id) := by
  obtain ⟨q, hq, hsub, hrec, hwait, hcont⟩ := h.record
  have hcomplete : s.complete messageSent id = s.modify r fun q => { q with
      hasCompleted := true
      waitingForDataTce := q.waitingForDataTce || !messageSent
      continuations := q.continuations + 1 } := by
    unfold RpcService.complete
    rw [h.entry]
  refine ⟨tableKeyed_step h.keyed (a := .complete messageSent id) rfl, ?_, ?_, ?_⟩
  · rw [hcomplete]
    exact h.idle
  · rw [hcomplete]
    exact h.entry
  · rw [hcomplete, modify_get, if_pos rfl, hq]
    refine ⟨_, rfl, hsub, ?_, ?_, ?_⟩
    · show q.observer.received = _
      rw [hrec]
      simp [valuesOf, Reply.value?]
    · show (q.waitingForDataTce || !messageSent) = _
      rw [hwait]
      simp [dataKnown]
    · show q.continuations + 1 = _
      rw [hcont]
      simp [endings]

/-- The continuation of a waiting request is possible once both events have happened. -/
theorem waiting_continuation {r : Ref} {id : UInt16} {pre : List Reply} {s : RpcService}
    (h : Waiting r id pre s) : s.continuation r =
      if dataKnown pre && decide (0 < endings pre) then
        some ((s.modify r fun q => { q with continuations := q.continuations - 1 }).notify r
          (·.onCompleted))
      else none := by
  obtain ⟨q, hq, hsub, hrec, hwait, hcont⟩ := h.record
  have hheld : (s.modify r fun q => { q with continuations := q.continuations - 1 }).isHeld r =
      true := isHeld_iff.mpr (Or.inl ⟨id, h.entry⟩)
  unfold RpcService.continuation
  rw [hq]
  simp only [hwait, hcont, hheld, if_true]

theorem done_notify {r : Ref} {pre : List Reply} {s : RpcService} {q : RpcRequest}
    (hq : s.heap[r]? = some q) (hsub : q.observer.isSubscribed = true)
    (hrec : q.observer.received = (valuesOf pre).map .next) (hd : dataKnown pre = true)
    (he : 0 < endings pre) : Done r pre (s.notify r (·.onCompleted)) := by
  refine ⟨hd, he, ?_⟩
  let s1 := s.modify r fun q => { q with observer := q.observer.onCompleted }
  have hq1 : s1.heap[r]? = some { q with observer := q.observer.onCompleted } := by
    rw [modify_get, if_pos rfl, hq]
    rfl
  have hend : q.observer.onCompleted.isSubscribed = false :=
    Rx.Subscriber.terminate_isSubscribed _ _
  have hrec1 : q.observer.onCompleted.received = (valuesOf pre).map .next ++ [.completed] := by
    rw [← hrec]
    exact Rx.Subscriber.terminate_received hsub _
  have hnotify : s.notify r (·.onCompleted) = s1.teardown r := by
    unfold RpcService.notify
    rw [hq]
    dsimp only
    rw [if_pos]
    rw [hsub, hend]
    rfl
  rw [hnotify]
  obtain ⟨q', hq', _, ho⟩ := (keeps_teardown s1 r).records r _ hq1
  refine ⟨q', hq', ?_, ?_⟩
  · rw [ho hend]
    exact hend
  · rw [ho hend]
    exact hrec1

/-! ## Runs of the caller -/

theorem waiting_elsewhere {r : Ref} {id : UInt16} {pre : List Reply} {s s' : RpcService}
    {a : RpcService.Action} (h : Waiting r id pre s) (hg : Undisturbed r id s a)
    (hs : s.step a = some s') (ha : a.answer? id = none) :
    Waiting r id pre s' ∨ Done r pre s' := by
  cases a with
  | next id' packet thrown =>
    refine Or.inl (waiting_apart h hs ?_)
    rintro rfl
    simp [RpcService.Action.answer?] at ha
  | error id' text =>
    refine Or.inl (waiting_apart h hs ?_)
    rintro rfl
    simp [RpcService.Action.answer?] at ha
  | complete messageSent id' =>
    refine Or.inl (waiting_apart h hs ?_)
    rintro rfl
    simp [RpcService.Action.answer?] at ha
  | continuation r' =>
    by_cases hr : r' = r
    · subst hr
      have hcont := waiting_continuation h
      rw [show s.continuation r' = some s' from hs] at hcont
      split at hcont
      · next hready =>
        cases hcont
        rw [Bool.and_eq_true, decide_eq_true_eq] at hready
        obtain ⟨q, hq, hsub, hrec, _, _⟩ := h.record
        have hq' : (s.modify r' fun q => { q with continuations := q.continuations - 1 }).heap[r']? =
            some { q with continuations := q.continuations - 1 } := by
          rw [modify_get, if_pos rfl, hq]
          rfl
        exact Or.inr (done_notify hq' hsub hrec hready.1 hready.2)
      · cases hcont
    · exact Or.inl (waiting_apart h hs hr)
  | unsubscribe r' => exact Or.inl (waiting_apart h hs hg)
  | cancelAllBegin reason => exact hg.elim
  | rpc route payload sendFails => exact Or.inl (waiting_apart h hs trivial)
  | cancelAllEntry i r' => exact Or.inl (waiting_apart h hs trivial)
  | cancelAllReturn i => exact Or.inl (waiting_apart h hs trivial)
  | sceneState connected => exact Or.inl (waiting_apart h hs trivial)
  | otherService lastId => exact Or.inl (waiting_apart h hs trivial)

theorem waiting_answer {r : Ref} {id : UInt16} {pre : List Reply} {s s' : RpcService}
    {a : RpcService.Action} {reply : Reply} (h : Waiting r id pre s)
    (hg : Undisturbed r id s a) (hs : s.step a = some s') (ha : a.answer? id = some reply)
    (hreply : ∀ msg, reply ≠ .error msg) : Waiting r id (pre ++ [reply]) s' := by
  cases a with
  | next id' packet thrown =>
    simp only [RpcService.Action.answer?, Option.ite_none_right_eq_some] at ha
    obtain ⟨rfl, hpacket⟩ := ha
    cases hpacket
    have hthrown : thrown = none := hg rfl
    subst hthrown
    cases hs
    exact waiting_next h packet
  | error id' text =>
    simp only [RpcService.Action.answer?, Option.ite_none_right_eq_some] at ha
    obtain ⟨_, htext⟩ := ha
    cases htext
    exact absurd rfl (hreply _)
  | complete messageSent id' =>
    simp only [RpcService.Action.answer?, Option.ite_none_right_eq_some] at ha
    obtain ⟨rfl, hflag⟩ := ha
    cases hflag
    cases hs
    exact waiting_complete h messageSent
  | _ => cases ha

theorem done_step {r : Ref} {pre : List Reply} {s s' : RpcService} {a : RpcService.Action}
    (h : Done r pre s) (hs : s.step a = some s') : Done r pre s' := by
  obtain ⟨q, hq, hsub, hrec⟩ := h.record
  obtain ⟨q', hq', ho⟩ := step_ended hs hq hsub
  exact ⟨h.known, h.ending, q', hq', by rw [ho, hsub], by rw [ho, hrec]⟩

/-- Along a run that works off a safe sequence of answers, the request waits, or is done and
nothing is left to come. -/
theorem run_follows {r : Ref} {id : UInt16} {replies : List Reply} {s₀ s : RpcService}
    {as : List RpcService.Action} (hstart : Waiting r id [] s₀) (hsafe : Safe replies)
    (herr : ∀ msg, Reply.error msg ∉ replies)
    (h : Lts.Run RpcService.step (Undisturbed r id) s₀ as s) (hpre : answersTo id as <+: replies) :
    Waiting r id (answersTo id as) s ∨ Done r (answersTo id as) s := by
  induction h with
  | nil => exact Or.inl hstart
  | @snoc as a s s' _ hg hs ih =>
    have hsplit : answersTo id (as ++ [a]) = answersTo id as ++ answersTo id [a] :=
      List.filterMap_append
    rw [hsplit] at hpre ⊢
    have hbefore : answersTo id as <+: replies := (List.prefix_append _ _).trans hpre
    cases ha : a.answer? id with
    | none =>
      have hnone : answersTo id [a] = [] := by simp [answersTo, ha]
      rw [hnone, List.append_nil]
      rcases ih hbefore with hw | hd
      · exact waiting_elsewhere hw hg hs ha
      · exact Or.inr (done_step hd hs)
    | some reply =>
      have hsome : answersTo id [a] = [reply] := by simp [answersTo, ha]
      rw [hsome] at hpre ⊢
      rcases ih hbefore with hw | hd
      · refine Or.inl (waiting_answer hw hg hs ha ?_)
        rintro msg rfl
        exact herr msg (hpre.subset (by simp))
      · -- All answers had come, so this one is not among them.
        have hall := hsafe _ hbefore hd.known hd.ending
        rw [hall] at hpre
        have hlen := hpre.length_le
        rw [List.length_append, List.length_singleton] at hlen
        omega

/-! ## Deliveries that are safe -/

theorem endings_append (l l' : List Reply) : endings (l ++ l') = endings l + endings l' := by
  unfold endings
  exact List.countP_append

theorem endings_values (values : List Payload) : endings (values.map Reply.next) = 0 := by
  unfold endings
  rw [List.countP_eq_zero]
  intro reply hreply
  obtain ⟨v, _, rfl⟩ := List.mem_map.mp hreply
  nofun

/-- COMPLETE comes last. -/
theorem safe_values_complete (values : List Payload) (b : Bool) :
    Safe (values.map .next ++ [.complete b]) := by
  intro pre hpre _ hend
  rcases List.prefix_concat_iff.mp hpre with hall | hsome
  · exact hall
  · obtain ⟨post, hpost⟩ := hsome
    have hzero : endings (pre ++ post) = 0 := by rw [hpost, endings_values]
    rw [endings_append] at hzero
    omega

/-- COMPLETE comes before the only value and says that there is one. -/
theorem safe_complete_value (value : Payload) : Safe [.complete true, .next value] := by
  intro pre hpre hknown hend
  rcases List.prefix_cons_iff.mp hpre with rfl | ⟨pre₁, rfl, hpre₁⟩
  · cases hend
  · rcases List.prefix_cons_iff.mp hpre₁ with rfl | ⟨pre₂, rfl, hpre₂⟩
    · cases hknown
    · rw [List.prefix_nil.mp hpre₂]

/-- What the reliability of a message says about the channel it is ordered on. -/
theorem orderedOn_eq {t : RpcCallee} (ht : MessagesInv t) {c : ContextRef}
    {ctx : RpcRequestContext} (hctx : t.context? c = some ctx) {m : Message}
    (hm : m ∈ t.messagesOf c) :
    m.orderedOn = if m.body.isValue && !ctx.ordered then none else some m.channelUid := by
  obtain ⟨hsent, hmc⟩ := List.mem_filter.mp hm
  obtain ⟨ctx', hctx', _, hrel⟩ := ht.known m hsent
  rw [beq_iff_eq.mp hmc, hctx] at hctx'
  cases hctx'
  unfold Message.orderedOn
  rw [hrel]
  cases m.body with
  | next value =>
    show (match ctx.reliability with | .reliable => none | .reliableOrdered => _) = _
    unfold RpcRequestContext.reliability
    cases ctx.ordered with
    | true => rfl
    | false => rfl
  | error msg => rfl
  | complete msgSent => rfl

theorem repliesOf_of_sends {t : RpcCallee} {c : ContextRef}
    {values : List (ChannelUid × Payload)} {last : ChannelUid} {b : Bool}
    (h : t.sendsOf c = values.map nextOn ++ [(last, .complete b)]) :
    t.repliesOf c = (values.map (·.2)).map .next ++ [.complete b] := by
  rw [← map_snd_sendsOf, h, List.map_append, map_snd_nextOn, List.map_map]
  rfl

/-- All messages have the channel uid of COMPLETE. -/
theorem channelUid_of_sends {t : RpcCallee} {c : ContextRef}
    {values : List (ChannelUid × Payload)} {last : ChannelUid} {b : Bool}
    (h : t.sendsOf c = values.map nextOn ++ [(last, .complete b)])
    (hone : ∀ v ∈ values, v.1 = last) {m : Message} (hm : m ∈ t.messagesOf c) :
    m.channelUid = last := by
  have hmem : (m.channelUid, m.body) ∈ t.sendsOf c := List.mem_map_of_mem hm
  rw [h, List.mem_append, List.mem_singleton] at hmem
  rcases hmem with hmem | heq
  · obtain ⟨v, hv, hveq⟩ := List.mem_map.mp hmem
    rw [← hone v hv]
    exact (congrArg Prod.fst hveq).symm
  · exact congrArg Prod.fst heq

/-- The answers that arrive are the values and COMPLETE, in some order. -/
theorem bodies_perm {t : RpcCallee} {c : ContextRef} {values : List (ChannelUid × Payload)}
    {last : ChannelUid} {b : Bool}
    (hsends : t.sendsOf c = values.map nextOn ++ [(last, .complete b)]) {arrived : List Message}
    (hd : Delivery.Delivers Message.orderedOn (t.messagesOf c) arrived) :
    (arrived.map (·.body)).Perm ((values.map (·.2)).map .next ++ [.complete b]) := by
  rw [← repliesOf_of_sends hsends]
  exact hd.once.map _

theorem safe_of_delivers {t : RpcCallee} (ht : MessagesInv t) {c : ContextRef}
    {ctx : RpcRequestContext} (hctx : t.context? c = some ctx)
    {values : List (ChannelUid × Payload)} {last : ChannelUid} {b : Bool}
    (hsends : t.sendsOf c = values.map nextOn ++ [(last, .complete b)]) {arrived : List Message}
    (hd : Delivery.Delivers Message.orderedOn (t.messagesOf c) arrived)
    (hok : (ctx.ordered = true ∧ ∀ v ∈ values, v.1 = last) ∨ values.length ≤ 1) :
    Safe (arrived.map (·.body)) := by
  have hrep := repliesOf_of_sends hsends
  have hflag := ht.completes c ((values.map (·.2)).map .next) [] b hrep
  have hperm := bodies_perm hsends hd
  rcases hok with ⟨hord, hone⟩ | hlen
  · have harr : arrived = t.messagesOf c := by
      refine hd.eq_of_one_channel (k := last) fun m hm => ?_
      rw [orderedOn_eq ht hctx hm, hord, channelUid_of_sends hsends hone hm]
      simp
    rw [harr]
    show Safe (t.repliesOf c)
    rw [hrep]
    exact safe_values_complete (values.map (·.2)) b
  · cases values with
    | nil =>
      rw [List.perm_singleton.mp hperm]
      exact safe_values_complete [] b
    | cons value values =>
      have hnil : values = [] := List.length_eq_zero_iff.mp (by simpa using hlen)
      subst hnil
      have hb : b = true := hflag
      subst hb
      rcases List.perm_pair.mp hperm with he | he
      · rw [he]
        exact safe_values_complete [value.2] true
      · rw [he]
        exact safe_complete_value value.2

/-! ## Both directions -/

theorem no_completed_in_values (values : List Payload) :
    (Rx.Notification.completed : Rx.Notification Payload String) ∉
      values.map Rx.Notification.next := by
  intro hmem
  obtain ⟨v, _, hv⟩ := List.mem_map.mp hmem
  cases hv

theorem valuesOf_values_complete (values : List Payload) (b : Bool) :
    valuesOf (values.map .next ++ [.complete b]) = values := by
  unfold valuesOf
  rw [List.filterMap_append, List.filterMap_map]
  simp [Function.comp_def, Reply.value?]

/-- When everything has arrived, the continuation of a waiting request can run. -/
theorem continuation_of_all {r : Ref} {id : UInt16} {values : List Payload} {b : Bool}
    {replies : List Reply} {s : RpcService} (hw : Waiting r id replies s)
    (hperm : replies.Perm (values.map .next ++ [.complete b]))
    (hflag : b = (values.map Reply.next).any Reply.isValue) : s.continuation r ≠ none := by
  have hend : 0 < endings replies := by
    have hcount : endings replies = endings (values.map .next ++ [.complete b]) :=
      hperm.countP_eq _
    rw [hcount, endings_append, endings_values]
    exact Nat.one_pos
  have hknown : dataKnown replies = true := by
    have hany : dataKnown replies = dataKnown (values.map .next ++ [.complete b]) :=
      hperm.any_eq
    rw [hany, hflag]
    cases values with
    | nil => rfl
    | cons v values => rfl
  rw [waiting_continuation hw, hknown, decide_eq_true hend]
  nofun

theorem noValueLost_of_one_channel_or_one {values : List (ChannelUid × Payload)}
    {last : ChannelUid} {ordered : Bool}
    (hok : (ordered = true ∧ ∀ v ∈ values, v.1 = last) ∨ values.length ≤ 1) :
    NoValueLost values last ordered := by
  intro procedures t c ctx b arrived routes s₀ s route payload as q ht hctx hord hsends hd hs₀
    hidle hstarts hrun hpre hq
  have hinv := messages_reachable ht
  have hsafe := safe_of_delivers hinv hctx hsends hd (by rw [hord]; exact hok)
  have hperm := bodies_perm hsends hd
  have herr : ∀ msg, Reply.error msg ∉ arrived.map (·.body) := by
    intro msg hmem
    rw [hperm.mem_iff] at hmem
    simp at hmem
  have hstart := waiting_start (tableKeyed_reachable hs₀) hidle hstarts payload
  rcases run_follows hstart hsafe herr hrun hpre with hw | hdone
  · obtain ⟨q', hq', _, hrec, _⟩ := hw.record
    rw [hq] at hq'
    cases hq'
    refine ⟨fun hmem => ?_, fun hall hquiet => ?_⟩
    · rw [hrec] at hmem
      exact absurd hmem (no_completed_in_values _)
    · rw [hall] at hw
      have hflag := hinv.completes c ((values.map (·.2)).map .next) [] b
        (repliesOf_of_sends hsends)
      exact absurd hquiet (continuation_of_all hw hperm hflag)
  · obtain ⟨q', hq', _, hrec⟩ := hdone.record
    rw [hq] at hq'
    cases hq'
    have hall := hsafe _ hpre hdone.known hdone.ending
    refine ⟨fun _ => ⟨valuesOf (answersTo ctx.id as), ?_, hrec⟩, fun _ _ => ?_⟩
    · rw [hall, ← valuesOf_values_complete (values.map (·.2)) b]
      exact hperm.filterMap _
    · rw [hrec]
      simp

/-- Values arrive at a waiting request, one after the other. -/
theorem waiting_values {r : Ref} {id : UInt16} {pre : List Reply} {s : RpcService}
    (h : Waiting r id pre s) (values : List Payload) :
    ∃ s', Lts.Run RpcService.step (Undisturbed r id) s (values.map fun v => .next id v none) s' ∧
      Waiting r id (pre ++ values.map .next) s' := by
  induction values generalizing pre s with
  | nil =>
    refine ⟨s, Lts.Run.nil, ?_⟩
    rw [List.map_nil, List.append_nil]
    exact h
  | cons v values ih =>
    obtain ⟨s', hrun, hw⟩ := ih (waiting_next h v)
    rw [List.append_assoc] at hw
    exact ⟨s', (Lts.Run.single (fun _ => rfl) rfl).append hrun, hw⟩

theorem answersTo_values (id : UInt16) (values : List Payload) :
    answersTo id (values.map fun v => .next id v none) = values.map .next := by
  unfold answersTo
  rw [List.filterMap_map]
  simp [Function.comp_def, RpcService.Action.answer?]

/-- The first messages to arrive are values, at least one, and COMPLETE. -/
theorem done_after_values {r : Ref} {id : UInt16} {s : RpcService} (h : Waiting r id [] s)
    {values : List Payload} (hne : values ≠ []) : ∃ as s',
      Lts.Run RpcService.step (Undisturbed r id) s as s' ∧
      answersTo id as = values.map .next ++ [.complete true] ∧
      Done r (values.map .next ++ [.complete true]) s' := by
  obtain ⟨s1, hrun1, h1⟩ := waiting_values h values
  have h2 : Waiting r id (values.map .next ++ [.complete true]) (s1.complete true id) :=
    waiting_complete h1 true
  have hknown : dataKnown (values.map .next ++ [.complete true]) = true := by
    obtain ⟨v, vs, rfl⟩ := List.exists_cons_of_ne_nil hne
    rfl
  have hend : 0 < endings (values.map .next ++ [.complete true]) := by
    rw [endings_append, endings_values]
    exact Nat.one_pos
  have hcont := waiting_continuation h2
  rw [hknown, decide_eq_true hend, Bool.and_true, if_pos rfl] at hcont
  obtain ⟨q, hq, hsub, hrec, _, _⟩ := h2.record
  let s2 := (s1.complete true id).modify r fun q => { q with continuations := q.continuations - 1 }
  have hq2 : s2.heap[r]? = some { q with continuations := q.continuations - 1 } := by
    rw [modify_get, if_pos rfl, hq]
    rfl
  let as : List RpcService.Action := values.map fun v => .next id v none
  have hrun2 : Lts.Run RpcService.step (Undisturbed r id) s (as ++ [.complete true id])
    (s1.complete true id) := hrun1.snoc trivial rfl
  have hrun3 : Lts.Run RpcService.step (Undisturbed r id) s
    (as ++ [.complete true id] ++ [.continuation r]) (s2.notify r (·.onCompleted)) :=
    hrun2.snoc trivial hcont
  refine ⟨_, _, hrun3, ?_, done_notify hq2 hsub hrec hknown hend⟩
  rw [answersTo, List.filterMap_append, List.filterMap_append]
  have hvalues : as.filterMap (RpcService.Action.answer? id) = values.map .next :=
    answersTo_values id values
  rw [hvalues]
  simp [RpcService.Action.answer?]

/-- COMPLETE may overtake a value, unless both are ordered on one channel. -/
theorem orderedOn_ne {t : RpcCallee} (ht : MessagesInv t) {c : ContextRef}
    {ctx : RpcRequestContext} (hctx : t.context? c = some ctx) {m last : Message}
    (hm : m ∈ t.messagesOf c) (hlast : last ∈ t.messagesOf c) (hval : m.body.isValue = true)
    (hend : last.body.isValue = false)
    (h : ctx.ordered = false ∨ m.channelUid ≠ last.channelUid) :
    m.orderedOn ≠ last.orderedOn := by
  rw [orderedOn_eq ht hctx hm, orderedOn_eq ht hctx hlast, hval, hend]
  rcases h with hord | hne
  · rw [hord]
    nofun
  · cases ctx.ordered with
    | false => nofun
    | true =>
      intro heq
      exact hne (Option.some.inj heq)

/-- A message that COMPLETE may overtake: it is that of a value. -/
theorem exists_overtaken {t : RpcCallee} (ht : MessagesInv t) {c : ContextRef}
    {ctx : RpcRequestContext} (hctx : t.context? c = some ctx)
    {values : List (ChannelUid × Payload)} (hne : values ≠ []) {ms : List Message}
    {last : Message} (hmsgs : t.messagesOf c = ms ++ [last])
    (hms : ms.map (fun m => (m.channelUid, m.body)) = values.map nextOn)
    (hend : last.body.isValue = false)
    (h : ctx.ordered = false ∨ ∃ v ∈ values, v.1 ≠ last.channelUid) :
    ∃ m ∈ ms, m.orderedOn ≠ last.orderedOn := by
  have hlast : last ∈ t.messagesOf c := by
    rw [hmsgs]
    exact List.mem_append_right _ (List.mem_singleton_self _)
  obtain ⟨v, hv, hapart⟩ : ∃ v ∈ values, ctx.ordered = false ∨ v.1 ≠ last.channelUid := by
    rcases h with hord | ⟨v, hv, hchannel⟩
    · obtain ⟨v, hv⟩ := List.exists_mem_of_ne_nil values hne
      exact ⟨v, hv, Or.inl hord⟩
    · exact ⟨v, hv, Or.inr hchannel⟩
  obtain ⟨m, hm, hmv⟩ : ∃ m ∈ ms, (m.channelUid, m.body) = nextOn v := by
    rw [← List.mem_map, hms]
    exact List.mem_map_of_mem hv
  obtain ⟨huid, hbody⟩ := Prod.mk.inj hmv
  refine ⟨m, hm, orderedOn_ne ht hctx ?_ hlast ?_ hend ?_⟩
  · rw [hmsgs]
    exact List.mem_append_left _ hm
  · rw [hbody]
    rfl
  · rw [huid]
    exact hapart

/-- A delivery in which the last value that COMPLETE may overtake comes after it. -/
theorem delivers_overtaken {t : RpcCallee} (ht : MessagesInv t) {c : ContextRef}
    {ctx : RpcRequestContext} (hctx : t.context? c = some ctx)
    {values : List (ChannelUid × Payload)} {last : ChannelUid} {b : Bool} (hne : values ≠ [])
    (hsends : t.sendsOf c = values.map nextOn ++ [(last, .complete b)])
    (h : ctx.ordered = false ∨ ∃ v ∈ values, v.1 ≠ last) :
    ∃ (early : List Payload) (late : Payload) (arrived : List Message),
      Delivery.Delivers Message.orderedOn (t.messagesOf c) arrived ∧
      arrived.map (·.body) = early.map .next ++ [.complete b, .next late] ∧
      early.length + 1 = values.length := by
  obtain ⟨ms, ends, hmsgs, hms, hends⟩ := List.map_eq_append_iff.mp hsends
  obtain ⟨m', rfl, hm'⟩ := List.map_eq_singleton_iff.mp hends
  obtain ⟨rfl, hbody'⟩ := Prod.mk.inj hm'
  have hend : m'.body.isValue = false := by
    rw [hbody']
    rfl
  obtain ⟨l₁, m, l₂, rfl, hm, hl₂⟩ := Delivery.exists_split_last
    (exists_overtaken ht hctx hne hmsgs hms hend h)
  have hbodies : l₁.map (·.body) ++ m.body :: l₂.map (·.body) =
      (values.map (·.2)).map .next := by
    have := congrArg (List.map Prod.snd) hms
    simpa [nextOn, Function.comp_def] using this
  obtain ⟨v₁, vs, hvs, hv₁, hrest⟩ := List.map_eq_append_iff.mp hbodies.symm
  obtain ⟨v, v₂, rfl, hv, hv₂⟩ := List.map_eq_cons_iff.mp hrest
  refine ⟨v₁ ++ v₂, v, l₁ ++ l₂ ++ [m', m], ?_, ?_, ?_⟩
  · rw [hmsgs]
    exact Delivery.Delivers.last_overtakes hm hl₂
  · simp [hv₁, hv₂, hv, hbody']
  · have hlen := congrArg List.length hvs
    simp at hlen ⊢
    omega

/-- A scene with one RPC route. -/
def echoRoutes : List Route := [⟨"echo", [(pluginName, version)]⟩]

/-- Of two or more values the last one that COMPLETE may overtake may come after the end. -/
theorem value_lost {values : List (ChannelUid × Payload)} {last : ChannelUid} {ordered : Bool}
    (htwo : 2 ≤ values.length) (h : ordered = false ∨ ∃ v ∈ values, v.1 ≠ last) :
    ¬ NoValueLost values last ordered := by
  intro hall
  obtain ⟨t, c, ctx, b, ht, hctx, hord, hid, hsends⟩ :=
    reachable_values_complete values last ordered
  have hinv := messages_reachable ht
  have hne : values ≠ [] := List.ne_nil_of_length_pos (Nat.lt_of_lt_of_le Nat.two_pos htwo)
  have hb : b = true := by
    obtain ⟨v, vs, rfl⟩ := List.exists_cons_of_ne_nil hne
    exact hinv.completes c _ [] b (repliesOf_of_sends hsends)
  subst hb
  rw [← hord] at h
  obtain ⟨early, late, arrived, hd, harrived, hlen⟩ := delivers_overtaken hinv hctx hne hsends h
  have hearly : early ≠ [] := List.ne_nil_of_length_pos (by omega)
  let s₀ := RpcService.init echoRoutes
  have hstarts : Starts s₀ "echo" 1 := by
    refine ⟨?_, ?_, ?_⟩ <;> decide
  have hkeyed : TableKeyed s₀ := fun _ _ hl => by cases hl
  have hstart : Waiting 0 1 [] (s₀.rpc "echo" [] none) := waiting_start hkeyed rfl hstarts []
  obtain ⟨as, s, hrun, hanswers, hdone⟩ := done_after_values hstart hearly
  obtain ⟨q, hq, _, hrec⟩ := hdone.record
  rw [← hid] at hstarts hrun hanswers
  have hpre : answersTo ctx.id as <+: arrived.map (·.body) := by
    rw [hanswers, harrived]
    exact ⟨[.next late], by simp⟩
  obtain ⟨ws, hws, hrecv⟩ := (hall _ t c ctx true arrived echoRoutes s₀ s "echo" [] as q ht hctx
    hord hsends hd Lts.Reachable.start rfl hstarts hrun hpre hq).1 (by rw [hrec]; simp)
  rw [hrec, valuesOf_values_complete] at hrecv
  have hlen' := congrArg List.length hrecv
  have hlen'' := hws.length_eq
  simp at hlen' hlen''
  omega

end EndToEndLemmas

open EndToEndLemmas

/-! ## Main results -/

/-- The observer receives all values before the end, in every delivery that the transport
allows, exactly when the procedure is ordered and all values go out on the channel of COMPLETE,
or at most one value is sent. -/
theorem no_value_lost_iff (values : List (ChannelUid × Payload)) (last : ChannelUid)
    (ordered : Bool) : NoValueLost values last ordered ↔
      (ordered = true ∧ ∀ v ∈ values, v.1 = last) ∨ values.length ≤ 1 := by
  refine ⟨fun hall => ?_, noValueLost_of_one_channel_or_one⟩
  by_contra hnot
  rw [not_or, not_and] at hnot
  obtain ⟨hchannel, hlen⟩ := hnot
  refine value_lost (Nat.lt_of_not_le hlen) ?_ hall
  cases ordered with
  | false => exact Or.inl rfl
  | true =>
    push Not at hchannel
    exact Or.inr (hchannel rfl)

/-- Two unordered values: COMPLETE arrives between them and the second one is lost. -/
theorem two_values_lost : ¬ ∀ (values : List (ChannelUid × Payload)) (last : ChannelUid)
    (ordered : Bool), NoValueLost values last ordered := by
  intro hall
  let uid : ChannelUid := ⟨0, by decide⟩
  let values : List (ChannelUid × Payload) := [(uid, [1]), (uid, [2])]
  have htwo : 2 ≤ values.length := Nat.le_refl 2
  exact value_lost htwo (Or.inl rfl) (hall values uid false)

end Stormancer.Rpc

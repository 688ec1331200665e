import Stormancer.Lib.Run
import Stormancer.Rpc.Callee

/-!
# The ids of the running requests

An entry of `_runningRequests` is made when a request is accepted. A cancellation erases it, and
so does the continuation of a handler that succeeded or was cancelled, which erases whatever
entry it finds under its id. The continuation of a handler that threw erases nothing.

Results:
1. `keyed_reachable`: in every run an entry leads to a context that has its id, that was not
   cancelled, and that is the last one accepted under that id.
2. `callee_bookkeeping`: in every run in which each ending erases its own entry, an id is a key
   exactly while an accepted, not cancelled invocation runs under it, and a request with any
   other id is executed.
3. `callee_id_lost`: after one handler that threw, its id is a key for ever.
-/

namespace Stormancer.Rpc

open RpcCallee (StepCase step_cases)

/-! ## Definitions -/

/-- What holds of the entries in every run. -/
structure Keyed (s : RpcCallee) : Prop where
  entry : ∀ (id : UInt16) (c : ContextRef), s.runningRequests.lookup id = some c →
    ∃ ctx : RpcRequestContext, s.context? c = some ctx ∧ ctx.id = id ∧ ctx.canceled = false ∧
      ctx.phase ≠ .completing
  last : ∀ (id : UInt16) (c : ContextRef), s.runningRequests.lookup id = some c →
    s.accepted.lookup id = some c

/-- An invocation that runs and was not cancelled has its entry. -/
def LiveKept (s : RpcCallee) : Prop :=
  ∀ (c : ContextRef) (ctx : RpcRequestContext), s.context? c = some ctx → ctx.isRunning = true →
    ctx.canceled = false → s.runningRequests.lookup ctx.id = some c

/-- A continuation that erases finds its own entry, or none. -/
def ErasesOwn (s : RpcCallee) : RpcCallee.Action → Prop
  | .continuation c => ∀ ctx ∈ s.context? c, ctx.returned = true →
      ∀ c' ∈ s.runningRequests.lookup ctx.id, c' = c
  | _ => True

/-- Each ending erases its own entry: a handler throws only after its cancellation, and one
that ends otherwise finds no entry of another invocation under its id. -/
def EndsTidily (s : RpcCallee) : RpcCallee.Action → Prop
  | .continuation c => ErasesOwn s (.continuation c) ∧
      ∀ ctx ∈ s.context? c, ctx.threw = true → ctx.canceled = true
  | _ => True

namespace CalleeLemmas

/-! ## The entries in every run -/

theorem keyed_congr {s s' : RpcCallee} (h : Keyed s) (hc : s'.contexts = s.contexts)
    (hr : s'.runningRequests = s.runningRequests) (ha : s'.accepted = s.accepted) : Keyed s' := by
  have hget : ∀ c, s'.context? c = s.context? c := fun c => by unfold RpcCallee.context?; rw [hc]
  constructor
  · intro id c hl
    rw [hr] at hl
    rw [hget]
    exact h.entry id c hl
  · intro id c hl
    rw [hr] at hl
    rw [ha]
    exact h.last id c hl

/-- A context that is changed without touching its id or its token keeps the entries. -/
theorem keyed_modify {s : RpcCallee} {c : ContextRef} {f : RpcRequestContext → RpcRequestContext}
    (h : Keyed s) (hf : ∀ ctx id, s.context? c = some ctx → s.runningRequests.lookup id = some c →
      (f ctx).id = ctx.id ∧ (f ctx).canceled = ctx.canceled ∧
        ((f ctx).phase = .completing → ctx.phase = .completing)) : Keyed (s.modify c f) := by
  refine ⟨fun id c' hl => ?_, h.last⟩
  obtain ⟨ctx, hctx, hid, hcan, hph⟩ := h.entry id c' hl
  by_cases hc : c = c'
  · subst hc
    obtain ⟨h1, h2, h3⟩ := hf ctx id hctx hl
    refine ⟨f ctx, ?_, h1.trans hid, h2.trans hcan, fun hp => hph (h3 hp)⟩
    rw [RpcCallee.context?_modify, if_pos rfl, hctx]
    rfl
  · refine ⟨ctx, ?_, hid, hcan, hph⟩
    rw [RpcCallee.context?_modify, if_neg hc, hctx]

theorem keyed_erase {s : RpcCallee} (h : Keyed s) (id : UInt16) :
    Keyed { s with runningRequests := s.runningRequests.erase id } := by
  constructor
  · intro id' c hl
    rw [Slots.Table.lookup_erase_eq] at hl
    split at hl
    · cases hl
    · exact h.entry id' c hl
  · intro id' c hl
    rw [Slots.Table.lookup_erase_eq] at hl
    split at hl
    · cases hl
    · exact h.last id' c hl

theorem keyed_accept {s : RpcCallee} (h : Keyed s) (peer : Peer) (id : UInt16) (ordered : Bool) :
    Keyed (s.accept peer id ordered) := by
  have hnew : (s.accept peer id ordered).context? (s.nextContext peer) =
      some (RpcRequestContext.create id ordered) := by
    rw [RpcCallee.context?_accept, if_pos rfl]
  constructor
  · intro id' c hl
    replace hl : (s.runningRequests.insert id (s.nextContext peer)).lookup id' = some c := hl
    rw [Slots.Table.lookup_insert_eq] at hl
    split at hl
    · next he =>
      cases hl
      exact ⟨_, hnew, he.symm, rfl, nofun⟩
    · obtain ⟨ctx, hctx, hrest⟩ := h.entry id' c hl
      refine ⟨ctx, ?_, hrest⟩
      rw [RpcCallee.context?_accept, if_neg, hctx]
      rintro rfl
      rw [RpcCallee.context?_nextContext] at hctx
      cases hctx
  · intro id' c hl
    replace hl : (s.runningRequests.insert id (s.nextContext peer)).lookup id' = some c := hl
    show (s.accepted.insert id (s.nextContext peer)).lookup id' = some c
    rw [Slots.Table.lookup_insert_eq] at hl ⊢
    split at hl
    · next he => rw [if_pos he, hl]
    · next he => rw [if_neg he, h.last id' c hl]

theorem keyed_step {s s' : RpcCallee} {a : RpcCallee.Action} (h : Keyed s)
    (hs : RpcCallee.step s a = some s') : Keyed s' := by
  cases step_cases hs with
  | idle => exact h
  | sceneState connected => exact keyed_congr h rfl rfl rfl
  | peers connectedPeers => exact keyed_congr h rfl rfl rfl
  | channelUid uid => exact keyed_congr h rfl rfl rfl
  | accept route peer id p hproc hfree => exact keyed_accept h peer id p.ordered
  | cancel peer id c hadm hentry =>
    refine keyed_modify (keyed_erase h id) fun ctx id' hctx hl => ?_
    -- The cancelled context has lost its only entry.
    obtain ⟨ctx1, hctx1, hid1, _⟩ := h.entry id c hentry
    rw [Slots.Table.lookup_erase_eq] at hl
    split at hl
    · cases hl
    · next hne =>
      obtain ⟨ctx2, hctx2, hid2, _⟩ := h.entry id' c hl
      rw [hctx1] at hctx2
      cases hctx2
      exact absurd (hid2.symm.trans hid1) hne
  | cancelAll =>
    obtain ⟨hr, ha, _, _⟩ := s.cancelAll_spec
    constructor
    · intro id c hl
      rw [hr] at hl
      cases hl
    · intro id c hl
      rw [hr] at hl
      cases hl
  | value c ctx value hctx hsend =>
    exact keyed_modify (keyed_congr h rfl rfl rfl) fun _ _ _ _ => ⟨rfl, rfl, id⟩
  | handlerError c ctx errorMsg hctx hsend => exact keyed_congr h rfl rfl rfl
  | ended c ctx outcome hctx hp => exact keyed_modify h fun _ _ _ _ => ⟨rfl, rfl, nofun⟩
  | erased c c' ctx hctx hp hentry =>
    refine keyed_modify (keyed_erase h ctx.id) fun ctx1 id' hctx1 hl => ?_
    -- Its id has just been erased, so no entry leads to the context.
    rw [Slots.Table.lookup_erase_eq] at hl
    split at hl
    · cases hl
    · next hne =>
      obtain ⟨ctx2, hctx2, hid2, _⟩ := h.entry id' c hl
      rw [hctx] at hctx2
      cases hctx2
      exact absurd hid2.symm hne
  | notFound c ctx hctx hp hentry => exact keyed_modify h fun _ _ _ _ => ⟨rfl, rfl, nofun⟩
  | threw c ctx what hctx hp => exact keyed_modify h fun _ _ _ _ => ⟨rfl, rfl, nofun⟩
  | threwOther c ctx hctx hp => exact keyed_modify h fun _ _ _ _ => ⟨rfl, rfl, nofun⟩
  | completed c ctx hctx hp hsend =>
    exact keyed_modify (keyed_congr h rfl rfl rfl) fun _ _ _ _ => ⟨rfl, rfl, nofun⟩
  | failed c ctx what hctx hp hsend =>
    exact keyed_modify (keyed_congr h rfl rfl rfl) fun _ _ _ _ => ⟨rfl, rfl, nofun⟩
  | completeFailed c ctx what fails hctx hp =>
    exact keyed_modify h fun _ _ _ _ => ⟨rfl, rfl, nofun⟩
  | errorFailed c ctx what fails hctx hp =>
    exact keyed_modify h fun _ _ _ _ => ⟨rfl, rfl, nofun⟩

theorem keyed_init (procedures : List Procedure) : Keyed (RpcCallee.init procedures) := by
  constructor
  · intro id c hl
    cases hl
  · intro id c hl
    cases hl

/-- Two entries of one context are the same entry. -/
theorem keyed_inj {s : RpcCallee} (h : Keyed s) {id id' : UInt16} {c : ContextRef}
    (hl : s.runningRequests.lookup id = some c) (hl' : s.runningRequests.lookup id' = some c) :
    id = id' := by
  obtain ⟨ctx, hctx, hid, _⟩ := h.entry id c hl
  obtain ⟨ctx', hctx', hid', _⟩ := h.entry id' c hl'
  rw [hctx] at hctx'
  cases hctx'
  exact hid.symm.trans hid'

/-- A cancelled context has no entry. -/
theorem no_entry_of_canceled {s : RpcCallee} (h : Keyed s) {id : UInt16} {c : ContextRef}
    {ctx : RpcRequestContext} (hctx : s.context? c = some ctx) (hcan : ctx.canceled = true) :
    s.runningRequests.lookup id ≠ some c := by
  intro hl
  obtain ⟨ctx', hctx', _, hcan', _⟩ := h.entry id c hl
  rw [hctx] at hctx'
  cases hctx'
  rw [hcan] at hcan'
  cases hcan'

/-! ## Running invocations keep their entries -/

theorem liveKept_congr {s s' : RpcCallee} (h : LiveKept s) (hc : s'.contexts = s.contexts)
    (hr : s'.runningRequests = s.runningRequests) : LiveKept s' := by
  intro c ctx hctx
  have hget : s'.context? c = s.context? c := by unfold RpcCallee.context?; rw [hc]
  rw [hget] at hctx
  rw [hr]
  exact h c ctx hctx

theorem liveKept_modify {s : RpcCallee} {c : ContextRef}
    {f : RpcRequestContext → RpcRequestContext} (h : LiveKept s)
    (hf : ∀ ctx, s.context? c = some ctx → (f ctx).id = ctx.id ∧
      ((f ctx).isRunning = true → (f ctx).canceled = false →
        ctx.isRunning = true ∧ ctx.canceled = false)) : LiveKept (s.modify c f) := by
  intro c' ctx' hctx' hrun hcan
  rw [RpcCallee.context?_modify] at hctx'
  split at hctx'
  · next hc =>
    subst hc
    obtain ⟨ctx, hctx, rfl⟩ := Option.map_eq_some_iff.mp hctx'
    obtain ⟨hid, hlive⟩ := hf ctx hctx
    obtain ⟨hrun', hcan'⟩ := hlive hrun hcan
    rw [hid]
    exact h c ctx hctx hrun' hcan'
  · exact h c' ctx' hctx' hrun hcan

/-- The entry of `c` goes, together with what kept `c` alive. -/
theorem liveKept_erase_modify {s : RpcCallee} {c : ContextRef} {id : UInt16}
    {f : RpcRequestContext → RpcRequestContext} (h : LiveKept s)
    (hl : s.runningRequests.lookup id = some c)
    (hf : ∀ ctx, (f ctx).isRunning = false ∨ (f ctx).canceled = true) :
    LiveKept ({ s with runningRequests := s.runningRequests.erase id }.modify c f) := by
  intro c' ctx' hctx' hrun hcan
  rw [RpcCallee.context?_modify] at hctx'
  split at hctx'
  · obtain ⟨ctx, _, rfl⟩ := Option.map_eq_some_iff.mp hctx'
    rcases hf ctx with hf | hf
    · rw [hf] at hrun
      cases hrun
    · rw [hf] at hcan
      cases hcan
  · next hc =>
    have hl' := h c' ctx' hctx' hrun hcan
    show (s.runningRequests.erase id).lookup ctx'.id = some c'
    rw [Slots.Table.lookup_erase_eq, if_neg]
    · exact hl'
    · rintro rfl
      rw [hl] at hl'
      cases hl'
      exact hc rfl

theorem liveKept_step {s s' : RpcCallee} {a : RpcCallee.Action} (h : LiveKept s)
    (hg : ErasesOwn s a) (hs : RpcCallee.step s a = some s') : LiveKept s' := by
  cases step_cases hs with
  | idle => exact h
  | sceneState connected => exact liveKept_congr h rfl rfl
  | peers connectedPeers => exact liveKept_congr h rfl rfl
  | channelUid uid => exact liveKept_congr h rfl rfl
  | accept route peer id p hproc hfree =>
    intro c ctx hctx hrun hcan
    show (s.runningRequests.insert id (s.nextContext peer)).lookup ctx.id = some c
    rw [Slots.Table.lookup_insert_eq]
    rw [RpcCallee.context?_accept] at hctx
    split at hctx
    · next hc =>
      cases hctx
      rw [hc]
      exact if_pos rfl
    · have hl := h c ctx hctx hrun hcan
      rw [if_neg, hl]
      intro he
      rw [he, hfree] at hl
      cases hl
  | cancel peer id c hadm hentry =>
    exact liveKept_erase_modify h hentry fun _ => Or.inr rfl
  | cancelAll =>
    obtain ⟨_, _, _, hctxs⟩ := s.cancelAll_spec
    intro c ctx' hctx' hrun hcan
    rw [hctxs] at hctx'
    obtain ⟨ctx, hctx, rfl⟩ := Option.map_eq_some_iff.mp hctx'
    split at hcan
    · cases hcan
    · next hnot =>
      -- A running context that is not cancelled had an entry, which `cancelAll` found.
      rw [if_neg hnot] at hrun
      exact absurd (Slots.Table.mem_values.mpr ⟨ctx.id, h c ctx hctx hrun hcan⟩) hnot
  | value c ctx value hctx hsend =>
    exact liveKept_modify (liveKept_congr h rfl rfl) fun _ _ => ⟨rfl, fun hr hc => ⟨hr, hc⟩⟩
  | handlerError c ctx errorMsg hctx hsend => exact liveKept_congr h rfl rfl
  | ended c ctx outcome hctx hp =>
    refine liveKept_modify h fun ctx1 hctx1 => ⟨rfl, fun _ hcan => ⟨?_, hcan⟩⟩
    rw [hctx] at hctx1
    cases hctx1
    unfold RpcRequestContext.isRunning
    rw [hp]
  | erased c c' ctx hctx hp hentry =>
    have hown : c' = c := hg ctx hctx hp c' hentry
    subst hown
    exact liveKept_erase_modify h hentry fun _ => Or.inl rfl
  | notFound c ctx hctx hp hentry => exact liveKept_modify h fun _ _ => ⟨rfl, nofun⟩
  | threw c ctx what hctx hp => exact liveKept_modify h fun _ _ => ⟨rfl, nofun⟩
  | threwOther c ctx hctx hp => exact liveKept_modify h fun _ _ => ⟨rfl, nofun⟩
  | completed c ctx hctx hp hsend =>
    exact liveKept_modify (liveKept_congr h rfl rfl) fun _ _ => ⟨rfl, nofun⟩
  | failed c ctx what hctx hp hsend =>
    exact liveKept_modify (liveKept_congr h rfl rfl) fun _ _ => ⟨rfl, nofun⟩
  | completeFailed c ctx what fails hctx hp =>
    exact liveKept_modify h fun _ _ => ⟨rfl, nofun⟩
  | errorFailed c ctx what fails hctx hp => exact liveKept_modify h fun _ _ => ⟨rfl, nofun⟩

theorem liveKept_init (procedures : List Procedure) : LiveKept (RpcCallee.init procedures) := by
  intro c ctx hctx
  cases hctx

/-! ## Entries lead to running invocations -/

/-- Every entry is one of an invocation that runs. -/
def EntryRuns (s : RpcCallee) : Prop :=
  ∀ (id : UInt16) (c : ContextRef) (ctx : RpcRequestContext),
    s.runningRequests.lookup id = some c → s.context? c = some ctx → ctx.isRunning = true

theorem entryRuns_congr {s s' : RpcCallee} (h : EntryRuns s) (hc : s'.contexts = s.contexts)
    (hr : s'.runningRequests = s.runningRequests) : EntryRuns s' := by
  intro id c ctx hl hctx
  have hget : s'.context? c = s.context? c := by unfold RpcCallee.context?; rw [hc]
  rw [hget] at hctx
  rw [hr] at hl
  exact h id c ctx hl hctx

theorem entryRuns_erase {s : RpcCallee} (h : EntryRuns s) (id : UInt16) :
    EntryRuns { s with runningRequests := s.runningRequests.erase id } := by
  intro id' c ctx hl hctx
  rw [Slots.Table.lookup_erase_eq] at hl
  split at hl
  · cases hl
  · exact h id' c ctx hl hctx

theorem entryRuns_modify {s : RpcCallee} {c : ContextRef}
    {f : RpcRequestContext → RpcRequestContext} (h : EntryRuns s)
    (hf : ∀ ctx id, s.context? c = some ctx → s.runningRequests.lookup id = some c →
      ctx.isRunning = true → (f ctx).isRunning = true) : EntryRuns (s.modify c f) := by
  intro id c' ctx' hl hctx'
  rw [RpcCallee.context?_modify] at hctx'
  split at hctx'
  · next hc =>
    subst hc
    obtain ⟨ctx, hctx, rfl⟩ := Option.map_eq_some_iff.mp hctx'
    exact hf ctx id hctx hl (h id c ctx hl hctx)
  · exact h id c' ctx' hl hctx'

theorem entryRuns_step {s s' : RpcCallee} {a : RpcCallee.Action} (h : EntryRuns s) (hk : Keyed s)
    (hg : EndsTidily s a) (hs : RpcCallee.step s a = some s') : EntryRuns s' := by
  cases step_cases hs with
  | idle => exact h
  | sceneState connected => exact entryRuns_congr h rfl rfl
  | peers connectedPeers => exact entryRuns_congr h rfl rfl
  | channelUid uid => exact entryRuns_congr h rfl rfl
  | accept route peer id p hproc hfree =>
    intro id' c ctx hl hctx
    rw [RpcCallee.context?_accept] at hctx
    split at hctx
    · cases hctx
      rfl
    · next hc =>
      replace hl : (s.runningRequests.insert id (s.nextContext peer)).lookup id' = some c := hl
      rw [Slots.Table.lookup_insert_eq] at hl
      split at hl
      · cases hl
        exact absurd rfl hc
      · exact h id' c ctx hl hctx
  | cancel peer id c hadm hentry =>
    exact entryRuns_modify (entryRuns_erase h id) fun _ _ _ _ hr => hr
  | cancelAll =>
    obtain ⟨hr, _⟩ := s.cancelAll_spec
    intro id c ctx hl
    rw [hr] at hl
    cases hl
  | value c ctx value hctx hsend =>
    exact entryRuns_modify (entryRuns_congr h rfl rfl) fun _ _ _ _ hr => hr
  | handlerError c ctx errorMsg hctx hsend => exact entryRuns_congr h rfl rfl
  | ended c ctx outcome hctx hp => exact entryRuns_modify h fun _ _ _ _ _ => rfl
  | erased c c' ctx hctx hp hentry =>
    refine entryRuns_modify (entryRuns_erase h ctx.id) fun ctx1 id hctx1 hl _ => ?_
    -- The erased entry was the only one of `c`.
    have hown : c' = c := hg.1 ctx hctx hp c' hentry
    subst hown
    rw [Slots.Table.lookup_erase_eq] at hl
    split at hl
    · cases hl
    · next hne => exact absurd (keyed_inj hk hl hentry) hne
  | notFound c ctx hctx hp hentry =>
    refine entryRuns_modify h fun ctx1 id hctx1 hl _ => ?_
    obtain ⟨ctx2, hctx2, hid, _⟩ := hk.entry id c hl
    rw [hctx] at hctx2
    cases hctx2
    rw [← hid, hentry] at hl
    cases hl
  | threw c ctx what hctx hp =>
    refine entryRuns_modify h fun ctx1 id hctx1 hl _ => ?_
    exact absurd hl
      (no_entry_of_canceled hk hctx (hg.2 ctx hctx (by simp [RpcRequestContext.threw, hp])))
  | threwOther c ctx hctx hp =>
    refine entryRuns_modify h fun ctx1 id hctx1 hl _ => ?_
    exact absurd hl
      (no_entry_of_canceled hk hctx (hg.2 ctx hctx (by simp [RpcRequestContext.threw, hp])))
  | completed c ctx hctx hp hsend =>
    refine entryRuns_modify (entryRuns_congr h rfl rfl) fun ctx1 id hctx1 hl hr => ?_
    cases hctx.symm.trans hctx1
    simp [RpcRequestContext.isRunning, hp] at hr
  | failed c ctx what hctx hp hsend =>
    refine entryRuns_modify (entryRuns_congr h rfl rfl) fun ctx1 id hctx1 hl hr => ?_
    cases hctx.symm.trans hctx1
    simp [RpcRequestContext.isRunning, hp] at hr
  | completeFailed c ctx what fails hctx hp =>
    refine entryRuns_modify h fun ctx1 id hctx1 hl hr => ?_
    cases hctx.symm.trans hctx1
    simp [RpcRequestContext.isRunning, hp] at hr
  | errorFailed c ctx what fails hctx hp =>
    refine entryRuns_modify h fun ctx1 id hctx1 hl hr => ?_
    cases hctx.symm.trans hctx1
    simp [RpcRequestContext.isRunning, hp] at hr

/-! ## Runs -/

theorem keyed_reachable {G : RpcCallee → RpcCallee.Action → Prop} {procedures : List Procedure}
    {s : RpcCallee} (h : Lts.Reachable RpcCallee.step G (RpcCallee.init procedures) s) :
    Keyed s :=
  h.invariant (keyed_init procedures) fun _ _ _ hk _ hs => keyed_step hk hs

theorem liveKept_reachable {G : RpcCallee → RpcCallee.Action → Prop}
    (hG : ∀ s a, G s a → ErasesOwn s a) {procedures : List Procedure} {s : RpcCallee}
    (h : Lts.Reachable RpcCallee.step G (RpcCallee.init procedures) s) : LiveKept s :=
  h.invariant (liveKept_init procedures) fun _ _ _ hl hg hs => liveKept_step hl (hG _ _ hg) hs

theorem erasesOwn_of_endsTidily (s : RpcCallee) (a : RpcCallee.Action) (h : EndsTidily s a) :
    ErasesOwn s a := by
  cases a with
  | continuation c => exact h.1
  | _ => trivial

theorem entryRuns_reachable {procedures : List Procedure} {s : RpcCallee}
    (h : Lts.Reachable RpcCallee.step EndsTidily (RpcCallee.init procedures) s) :
    EntryRuns s := by
  have both : ∀ (t : RpcCallee) (a : RpcCallee.Action) (t' : RpcCallee), Keyed t ∧ EntryRuns t →
      EndsTidily t a → RpcCallee.step t a = some t' → Keyed t' ∧ EntryRuns t' := by
    rintro t a t' ⟨hk, he⟩ hg hs
    exact ⟨keyed_step hk hs, entryRuns_step he hk hg hs⟩
  have start : EntryRuns (RpcCallee.init procedures) := by
    intro id c ctx hl
    cases hl
  exact (Lts.Reachable.invariant ⟨keyed_init procedures, start⟩ both h).2

end CalleeLemmas

open CalleeLemmas

/-! ## Main results -/

/-- An accepted and not cancelled invocation runs under the id. -/
def RunsUnder (s : RpcCallee) (id : UInt16) : Prop :=
  ∃ (c : ContextRef) (ctx : RpcRequestContext), s.context? c = some ctx ∧ ctx.id = id ∧
    ctx.canceled = false ∧ ctx.isRunning = true

/-- The keys are the ids with a running invocation, and a request that the route lets through
is executed under every other id. -/
def Bookkept (s : RpcCallee) : Prop :=
  (∀ id : UInt16, (s.runningRequests.lookup id).isSome = true ↔ RunsUnder s id) ∧
  ∀ (route : String) (peer : Peer) (id : UInt16) (p : Procedure),
    s.procedure? route peer = some p → ¬ RunsUnder s id →
    s.request route peer id = s.accept peer id p.ordered

/-- In every run in which each ending erases its own entry, an id is a key exactly while an
accepted and not cancelled invocation runs under it. -/
theorem callee_bookkeeping {procedures : List Procedure} {s : RpcCallee}
    (h : Lts.Reachable RpcCallee.step EndsTidily (RpcCallee.init procedures) s) : Bookkept s := by
  have hkeys : ∀ id : UInt16, (s.runningRequests.lookup id).isSome = true ↔ RunsUnder s id := by
    intro id
    constructor
    · intro hl
      obtain ⟨c, hl⟩ := Option.isSome_iff_exists.mp hl
      obtain ⟨ctx, hctx, hid, hcan, _⟩ := (keyed_reachable h).entry id c hl
      exact ⟨c, ctx, hctx, hid, hcan, entryRuns_reachable h id c ctx hl hctx⟩
    · rintro ⟨c, ctx, hctx, rfl, hcan, hrun⟩
      rw [liveKept_reachable erasesOwn_of_endsTidily h c ctx hctx hrun hcan]
      rfl
  refine ⟨hkeys, fun route peer id p hproc hidle => ?_⟩
  have hfree : s.runningRequests.lookup id = none := by
    rw [← Option.not_isSome_iff_eq_none, hkeys]
    exact hidle
  unfold RpcCallee.request
  rw [hproc]
  dsimp only
  rw [hfree]

instance : ∀ (s : RpcCallee) (a : RpcCallee.Action), Decidable (ErasesOwn s a)
  | s, .continuation c => inferInstanceAs (Decidable (∀ ctx ∈ s.context? c, ctx.returned = true →
      ∀ c' ∈ s.runningRequests.lookup ctx.id, c' = c))
  | _, .request .. | _, .cancel .. | _, .cancelAll | _, .sendValue .. | _, .sendError ..
  | _, .handlerEnds .. | _, .sendComplete .. | _, .reportError .. | _, .sceneState _
  | _, .peers _ | _, .channelUid _ => inferInstanceAs (Decidable True)

instance : ∀ (s : RpcCallee) (a : RpcCallee.Action), Decidable (EndsTidily s a)
  | s, .continuation c => inferInstanceAs (Decidable (ErasesOwn s (.continuation c) ∧
      ∀ ctx ∈ s.context? c, ctx.threw = true → ctx.canceled = true))
  | _, .request .. | _, .cancel .. | _, .cancelAll | _, .sendValue .. | _, .sendError ..
  | _, .handlerEnds .. | _, .sendComplete .. | _, .reportError .. | _, .sceneState _
  | _, .peers _ | _, .channelUid _ => inferInstanceAs (Decidable True)

/-- A procedure that the scene host and the P2P peers may call. -/
def exProcedures : List Procedure := [⟨"echo", .all, true⟩]

def exHost (index : Nat) : ContextRef := ⟨.host, index⟩

/-- One handler succeeds, another throws after its cancellation, both ids are used again. -/
def exTidy : List RpcCallee.Action :=
  [.request "echo" .host 1, .request "echo" .host 2, .handlerEnds (exHost 0) .success,
    .continuation (exHost 0), .sendComplete (exHost 0) none, .cancel .host 2,
    .handlerEnds (exHost 1) (.exception "canceled"), .continuation (exHost 1),
    .request "echo" .host 1, .request "echo" .host 2]

theorem callee_bookkeeping_tidy :
    ∃ s : RpcCallee, ((s.runningRequests.lookup 1).isSome &&
      (s.runningRequests.lookup 2).isSome) = true ∧ Bookkept s := by
  obtain ⟨s, hs, hkeys⟩ := Lts.Reachable.of_exec RpcCallee.step EndsTidily
    (RpcCallee.init exProcedures) exTidy
    (fun (s : RpcCallee) => (s.runningRequests.lookup 1).isSome &&
      (s.runningRequests.lookup 2).isSome) (by decide)
  exact ⟨s, hkeys, callee_bookkeeping hs⟩

/-- One handler throws. -/
def exThrown : List RpcCallee.Action :=
  [.request "echo" .host 1, .handlerEnds (exHost 0) (.exception "failed"),
    .continuation (exHost 0), .reportError (exHost 0) none]

/-- Without the condition the id of a handler that threw stays a key, and the next request
with this id is not executed. -/
theorem callee_id_lost : ¬ ∀ (procedures : List Procedure) (s : RpcCallee),
    Lts.Reachable RpcCallee.step Lts.anyStep (RpcCallee.init procedures) s → Bookkept s := by
  intro hall
  obtain ⟨s, hs, hp⟩ := Lts.Reachable.of_exec RpcCallee.step ErasesOwn
    (RpcCallee.init exProcedures) exThrown
    (fun s => (s.runningRequests.lookup 1).any fun c =>
      (s.context? c).any fun ctx => !ctx.isRunning) (by decide)
  obtain ⟨c, hl, hp⟩ := (Option.any_eq_true _ _).mp hp
  obtain ⟨ctx, hctx, hp⟩ := (Option.any_eq_true _ _).mp hp
  have hkeys := (hall exProcedures s (hs.mono fun _ _ _ => trivial)).1 1
  obtain ⟨c', ctx', hctx', hid, hcan, hrun⟩ := hkeys.mp (by rw [hl]; rfl)
  -- An invocation that runs is the one of the entry, which does not run.
  have hl' := liveKept_reachable (fun _ _ hg => hg) hs c' ctx' hctx' hrun hcan
  rw [hid, hl] at hl'
  cases hl'
  rw [hctx] at hctx'
  cases hctx'
  rw [hrun] at hp
  cases hp

end Stormancer.Rpc

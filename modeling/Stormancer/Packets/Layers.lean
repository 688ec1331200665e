import Stormancer.Packets.Dispatcher

/-!
# The calls of a dispatch

The loop of the dispatcher does not look whether the id of a layer was read: when the packet has
nothing more to read, it has the id of the layer before, and calls the same handler again. The
catch-all processors are called also when a handler has taken the packet.

Results:
1. `traced_result`: the dispatch with its calls is the dispatch.
2. `length_calls_le`: when every call is for an id that was read, there are at most as many calls
   as bytes.
3. `disciplined_iff`: when every call is for an id that was read, and at most one processor takes
   the packet.
-/

namespace Stormancer.Packets

variable {ω : Type}

/-- A byte can be read. -/
def IByteStream.Readable (s : IByteStream) : Prop := s.good = true ∧ s.unread ≠ []

instance (s : IByteStream) : Decidable s.Readable := inferInstanceAs (Decidable (_ ∧ _))

/-- A call of a handler. -/
structure Call where
  id : UInt8
  /-- The id was read from the packet for this call. -/
  read : Bool
  /-- The handler has processed the packet. -/
  processed : Bool
deriving DecidableEq

/-- A dispatch with the calls of the handlers, and for each call of a catch-all processor whether
it has processed the packet. -/
structure Trace (ω : Type) where
  handlers : List Call
  processors : List Bool
  result : Except String (Bool × Dispatch ω)

namespace DefaultPacketDispatcher

/-! ## Calls -/

/-- The call of a handler in the state `s`. -/
def call (s : Dispatch ω) (processed : Bool) : Call :=
  ⟨(readType s).msgType, decide s.packet.stream.Readable, processed⟩

/-- The loop of `dispatchImpl`, with its calls. -/
def tracedLoop (d : DefaultPacketDispatcher ω) :
    Nat → Dispatch ω → List Call × Except String (Bool × Dispatch ω)
  | 0, s => ([], .ok (false, s))
  | n + 1, s =>
    match d.handlers (readType s).msgType with
    | none => ([], .ok (false, readType s))
    | some handler =>
      match handler (readType s).packet (readType s).world with
      | .error text => ([call s false], .error text)
      | .ok (true, packet, world) =>
        ([call s true], .ok (true, ⟨(readType s).msgType, packet, world⟩))
      | .ok (false, packet, world) =>
        let rest := tracedLoop d n ⟨(readType s).msgType, packet, world⟩
        (call s false :: rest.1, rest.2)

/-- The catch-all processors, with what each of them returns. -/
def tracedProcessors : List (ProcessorFunction ω) → Bool → Dispatch ω →
    List Bool × Except String (Bool × Dispatch ω)
  | [], processed, s => ([], .ok (processed, s))
  | processor :: rest, processed, s =>
    match processor s.msgType s.packet s.world with
    | .error text => ([false], .error text)
    | .ok (true, packet, world) => ([true], .ok (true, ⟨s.msgType, packet, world⟩))
    | .ok (false, packet, world) =>
      let others := tracedProcessors rest processed ⟨s.msgType, packet, world⟩
      (false :: others.1, others.2)

/-- `dispatchImpl`, with its calls. -/
def traced (d : DefaultPacketDispatcher ω) (packet : Packet) (world : ω) : Trace ω :=
  let loop := d.tracedLoop maxLayerCount ⟨0, packet, world⟩
  match loop.2 with
  | .error text => ⟨loop.1, [], .error text⟩
  | .ok (processed, s) =>
    let processors := tracedProcessors d.defaultProcessors processed s
    ⟨loop.1, processors.1, processors.2⟩

/-! ## The property and the condition -/

/-- No handler adds bytes to those that can be read. -/
def OnlyConsumes (d : DefaultPacketDispatcher ω) : Prop :=
  ∀ id handler, d.handlers id = some handler →
    ∀ packet world processed packet' world',
      handler packet world = .ok (processed, packet', world') →
        packet'.stream.unread.length ≤ packet.stream.unread.length

/-- Every handler is called for an id that was read from the packet, at most once for each byte,
and at most one processor takes the packet. -/
structure Disciplined (d : DefaultPacketDispatcher ω) (packet : Packet) (world : ω) : Prop where
  read : ∀ call ∈ (d.traced packet world).handlers, call.read = true
  bounded : d.OnlyConsumes →
    (d.traced packet world).handlers.length ≤ packet.stream.unread.length
  alone : ((d.traced packet world).handlers.filter Call.processed).length +
    ((d.traced packet world).processors.filter id).length ≤ 1

/-- None of the processors takes the packet. -/
def Decline : List (ProcessorFunction ω) → Dispatch ω → Prop
  | [], _ => True
  | processor :: rest, s =>
    match processor s.msgType s.packet s.world with
    | .error _ => True
    | .ok (true, _) => False
    | .ok (false, packet, world) => Decline rest ⟨s.msgType, packet, world⟩

/-- A handler takes the packet in the state `s`, and leaves `s'`. -/
def Takes (d : DefaultPacketDispatcher ω) (s s' : Dispatch ω) : Prop :=
  ∃ handler packet world, d.handlers (readType s).msgType = some handler ∧
    handler (readType s).packet (readType s).world = .ok (true, packet, world) ∧
    s' = ⟨(readType s).msgType, packet, world⟩

/-- The packet is not empty or no handler has the id 0, every handler that removes a layer, but for
the last one, leaves something to read, and after a handler that takes the packet no catch-all
processor does. -/
structure Orderly (d : DefaultPacketDispatcher ω) (packet : Packet) (world : ω) : Prop where
  start : packet.stream.Readable ∨ d.handlers 0 = none
  leaves : ∀ n s s', d.Layers n ⟨0, packet, world⟩ s → n + 1 < maxLayerCount → d.Layer s s' →
    s'.packet.stream.Readable
  declines : ∀ n s s', d.Layers n ⟨0, packet, world⟩ s → n < maxLayerCount → d.Takes s s' →
    Decline d.defaultProcessors s'

namespace LayersLemmas

variable {d : DefaultPacketDispatcher ω} {packet : Packet} {world : ω}

/-! ## The dispatch -/

/-- What one round of the loop does. -/
theorem tracedLoop_succ (n : Nat) (s : Dispatch ω) :
    (d.handlers (readType s).msgType = none ∧
      d.tracedLoop (n + 1) s = ([], .ok (false, readType s))) ∨
    (∃ text, d.handlers (readType s).msgType ≠ none ∧
      d.tracedLoop (n + 1) s = ([call s false], .error text)) ∨
    (∃ s', d.Takes s s' ∧ d.tracedLoop (n + 1) s = ([call s true], .ok (true, s'))) ∨
    ∃ s', d.Layer s s' ∧ d.tracedLoop (n + 1) s =
      (call s false :: (d.tracedLoop n s').1, (d.tracedLoop n s').2) := by
  rw [tracedLoop]
  cases hhandler : d.handlers (readType s).msgType with
  | none => exact .inl ⟨rfl, rfl⟩
  | some handler =>
    right
    dsimp only
    cases hresult : handler (readType s).packet (readType s).world with
    | error text => exact .inl ⟨text, nofun, rfl⟩
    | ok r =>
      obtain ⟨processed, packet, world⟩ := r
      cases processed with
      | true => exact .inr (.inl ⟨_, ⟨handler, packet, world, hhandler, hresult, rfl⟩, rfl⟩)
      | false => exact .inr (.inr ⟨_, ⟨handler, packet, world, hhandler, hresult, rfl⟩, rfl⟩)

theorem tracedLoop_result (n : Nat) (s : Dispatch ω) :
    (d.tracedLoop n s).2 = d.dispatchLoop n s := by
  induction n generalizing s with
  | zero => rfl
  | succ n ih =>
    unfold tracedLoop dispatchLoop
    cases d.handlers (readType s).msgType with
    | none => rfl
    | some handler =>
      dsimp only
      cases handler (readType s).packet (readType s).world with
      | error text => rfl
      | ok r =>
        obtain ⟨processed, packet, world⟩ := r
        cases processed with
        | true => rfl
        | false => exact ih _

theorem tracedProcessors_result (ps : List (ProcessorFunction ω)) (processed : Bool)
    (s : Dispatch ω) : (tracedProcessors ps processed s).2 = runProcessors ps processed s := by
  induction ps generalizing s with
  | nil => rfl
  | cons p rest ih =>
    unfold tracedProcessors runProcessors
    cases p s.msgType s.packet s.world with
    | error text => rfl
    | ok r =>
      obtain ⟨takes, packet, world⟩ := r
      cases takes with
      | true => rfl
      | false => exact ih _

theorem layers_cons {k : Nat} {s s' s'' : Dispatch ω} (hlayer : d.Layer s s')
    (h : d.Layers k s' s'') : d.Layers (k + 1) s s'' := by
  induction h with
  | refl => exact .tail (.refl s) hlayer
  | tail _ hlast ih => exact .tail (ih hlayer) hlast

/-! ## Reads -/

theorem readType_of_not_readable {s : Dispatch ω} (h : ¬ s.packet.stream.Readable) :
    (readType s).msgType = s.msgType := by
  unfold readType IByteStream.readByte
  dsimp only
  split
  · next hgood =>
    split
    · rfl
    · next hunread => exact absurd ⟨hgood, by rw [hunread]; nofun⟩ h
  · rfl

theorem unread_readType {s : Dispatch ω} (h : s.packet.stream.Readable) :
    (readType s).packet.stream.unread.length + 1 = s.packet.stream.unread.length := by
  obtain ⟨hgood, hne⟩ := h
  obtain ⟨b, rest, hunread⟩ := List.exists_cons_of_ne_nil hne
  unfold readType
  dsimp only
  rw [IByteStream.readByte_cons hgood hunread, hunread]
  rfl

theorem handler_of_layer {s s' : Dispatch ω} (h : d.Layer s s') :
    d.handlers (readType s).msgType ≠ none := by
  obtain ⟨handler, packet, world, hhandler, -, -⟩ := h
  rw [hhandler]
  nofun

theorem handler_of_takes {s s' : Dispatch ω} (h : d.Takes s s') :
    d.handlers (readType s).msgType ≠ none := by
  obtain ⟨handler, packet, world, hhandler, -, -⟩ := h
  rw [hhandler]
  nofun

/-- After a layer, an id that is not read has its handler, that of the layer. -/
theorem handler_after_layer {s s' : Dispatch ω} (h : d.Layer s s')
    (hread : ¬ s'.packet.stream.Readable) : d.handlers (readType s').msgType ≠ none := by
  rw [readType_of_not_readable hread]
  obtain ⟨handler, packet, world, hhandler, -, rfl⟩ := h
  rw [hhandler]
  nofun

/-- A byte can be read, or the id that is kept has no handler. -/
def Ready (d : DefaultPacketDispatcher ω) (s : Dispatch ω) : Prop :=
  s.packet.stream.Readable ∨ d.handlers s.msgType = none

theorem readable_of_ready {s : Dispatch ω} (h : Ready d s)
    (hsome : d.handlers (readType s).msgType ≠ none) : s.packet.stream.Readable := by
  by_contra hread
  rw [readType_of_not_readable hread] at hsome
  rcases h with hreadable | hnone
  · exact hread hreadable
  · exact hsome hnone

/-- The handlers are called for ids that were read when the loop goes on in ready states only. -/
theorem read_of_ready {n : Nat} {s : Dispatch ω} (hready : Ready d s)
    (hlayers : ∀ k s₁ s₂, d.Layers k s s₁ → k + 1 < n → d.Layer s₁ s₂ → Ready d s₂) :
    ∀ c ∈ (d.tracedLoop n s).1, c.read = true := by
  have hcall : d.handlers (readType s).msgType ≠ none → ∀ processed,
      (call s processed).read = true := fun hsome _ =>
    decide_eq_true (readable_of_ready hready hsome)
  induction n generalizing s with
  | zero => nofun
  | succ n ih =>
    intro c hc
    rcases tracedLoop_succ (d := d) n s with ⟨-, hrun⟩ | ⟨text, hsome, hrun⟩ | ⟨s', htakes, hrun⟩ |
      ⟨s', hlayer, hrun⟩
    · rw [hrun] at hc
      cases hc
    · rw [hrun, List.mem_singleton] at hc
      rw [hc]
      exact hcall hsome false
    · rw [hrun, List.mem_singleton] at hc
      rw [hc]
      exact hcall (handler_of_takes htakes) true
    · rw [hrun, List.mem_cons] at hc
      rcases hc with rfl | hc
      · exact hcall (handler_of_layer hlayer) false
      · cases n with
        | zero => cases hc
        | succ n =>
          have hready' := hlayers 0 s s' (.refl s) (by omega) hlayer
          refine ih hready' ?_ (fun hsome _ => decide_eq_true (readable_of_ready hready' hsome))
            c hc
          intro k s₁ s₂ hk hlt
          exact hlayers (k + 1) s₁ s₂ (layers_cons hlayer hk) (by omega)

/-! ## Layers -/

theorem tracedLoop_of_layer {s s' : Dispatch ω} (h : d.Layer s s') (n : Nat) :
    d.tracedLoop (n + 1) s = (call s false :: (d.tracedLoop n s').1, (d.tracedLoop n s').2) := by
  obtain ⟨handler, packet, world, hhandler, hok, rfl⟩ := h
  rw [tracedLoop, hhandler]
  dsimp only
  rw [hok]

theorem tracedLoop_of_takes {s s' : Dispatch ω} (h : d.Takes s s') (n : Nat) :
    d.tracedLoop (n + 1) s = ([call s true], .ok (true, s')) := by
  obtain ⟨handler, packet, world, hhandler, hok, rfl⟩ := h
  rw [tracedLoop, hhandler]
  dsimp only
  rw [hok]

/-- The calls of the loop are those for the layers and then those on what they carry. -/
theorem tracedLoop_of_layers {k : Nat} {s s' : Dispatch ω} (h : d.Layers k s s') (n : Nat) :
    ∃ calls, calls.filter Call.processed = [] ∧
      d.tracedLoop (n + k) s = (calls ++ (d.tracedLoop n s').1, (d.tracedLoop n s').2) := by
  induction h generalizing n with
  | refl => exact ⟨[], rfl, rfl⟩
  | @tail k s s' s'' _ hlayer ih =>
    obtain ⟨calls, hnone, hrun⟩ := ih (n + 1)
    refine ⟨calls ++ [call s' false], ?_, ?_⟩
    · rw [List.filter_append, hnone]
      rfl
    · rw [Nat.add_comm k 1, ← Nat.add_assoc, hrun, tracedLoop_of_layer hlayer]
      simp

/-- A state that the loop reaches calls its handler. -/
theorem mem_of_layers {k n : Nat} {s s' : Dispatch ω} (h : d.Layers k s s') (hlt : k < n)
    (hsome : d.handlers (readType s').msgType ≠ none) :
    ∃ processed, call s' processed ∈ (d.tracedLoop n s).1 := by
  obtain ⟨m, rfl⟩ := Nat.exists_eq_add_of_lt hlt
  obtain ⟨calls, -, hrun⟩ := tracedLoop_of_layers h (m + 1)
  have hfirst : ∃ processed, call s' processed ∈ (d.tracedLoop (m + 1) s').1 := by
    rcases tracedLoop_succ (d := d) m s' with ⟨hnone, -⟩ | ⟨_, -, hrun⟩ | ⟨_, -, hrun⟩ | ⟨_, -, hrun⟩
    · exact absurd hnone hsome
    · exact ⟨false, by rw [hrun]; exact List.mem_singleton_self _⟩
    · exact ⟨true, by rw [hrun]; exact List.mem_singleton_self _⟩
    · exact ⟨false, by rw [hrun]; exact List.mem_cons_self⟩
  obtain ⟨processed, hmem⟩ := hfirst
  refine ⟨processed, ?_⟩
  rw [show k + m + 1 = m + 1 + k by omega, hrun]
  exact List.mem_append_right _ hmem

/-! ## Takers -/

/-- A handler takes the packet exactly when the loop ends with it processed. -/
theorem taken_of_loop (n : Nat) (s : Dispatch ω) :
    (∃ k s₁ s₂, d.Layers k s s₁ ∧ k < n ∧ d.Takes s₁ s₂ ∧
      (d.tracedLoop n s).2 = .ok (true, s₂) ∧
      ((d.tracedLoop n s).1.filter Call.processed).length = 1) ∨
    (∀ s₂, (d.tracedLoop n s).2 ≠ .ok (true, s₂)) ∧
      ((d.tracedLoop n s).1.filter Call.processed).length = 0 := by
  induction n generalizing s with
  | zero => exact .inr ⟨nofun, rfl⟩
  | succ n ih =>
    rcases tracedLoop_succ (d := d) n s with ⟨-, hrun⟩ | ⟨text, -, hrun⟩ | ⟨s', htakes, hrun⟩ |
      ⟨s', hlayer, hrun⟩
    · rw [hrun]
      exact .inr ⟨nofun, rfl⟩
    · rw [hrun]
      exact .inr ⟨nofun, rfl⟩
    · rw [hrun]
      exact .inl ⟨0, s, s', .refl s, by omega, htakes, rfl, rfl⟩
    · rw [hrun]
      rcases ih s' with ⟨k, s₁, s₂, hk, hlt, htakes, hok, hone⟩ | hnone
      · exact .inl ⟨k + 1, s₁, s₂, layers_cons hlayer hk, by omega, htakes, hok, hone⟩
      · exact .inr hnone

theorem length_taken_le (ps : List (ProcessorFunction ω)) (processed : Bool) (s : Dispatch ω) :
    ((tracedProcessors ps processed s).1.filter id).length ≤ 1 := by
  induction ps generalizing s with
  | nil => exact Nat.zero_le 1
  | cons p rest ih =>
    unfold tracedProcessors
    cases p s.msgType s.packet s.world with
    | error text => exact Nat.zero_le 1
    | ok r =>
      obtain ⟨takes, packet, world⟩ := r
      cases takes with
      | true => exact Nat.le_refl 1
      | false => exact ih _

theorem length_taken_iff (ps : List (ProcessorFunction ω)) (processed : Bool) (s : Dispatch ω) :
    ((tracedProcessors ps processed s).1.filter id).length = 0 ↔ Decline ps s := by
  induction ps generalizing s with
  | nil => exact ⟨fun _ => trivial, fun _ => rfl⟩
  | cons p rest ih =>
    unfold tracedProcessors Decline
    cases p s.msgType s.packet s.world with
    | error text => exact ⟨fun _ => trivial, fun _ => rfl⟩
    | ok r =>
      obtain ⟨takes, packet, world⟩ := r
      cases takes with
      | true => exact ⟨nofun, nofun⟩
      | false => exact ih _

/-! ## Counting -/

theorem length_loop_le (hd : d.OnlyConsumes) {n : Nat} {s : Dispatch ω}
    (hread : ∀ c ∈ (d.tracedLoop n s).1, c.read = true) :
    (d.tracedLoop n s).1.length ≤ s.packet.stream.unread.length := by
  have hone : ∀ processed, (call s processed).read = true →
      (readType s).packet.stream.unread.length + 1 = s.packet.stream.unread.length :=
    fun _ h => unread_readType (of_decide_eq_true h)
  induction n generalizing s with
  | zero => exact Nat.zero_le _
  | succ n ih =>
    rcases tracedLoop_succ (d := d) n s with ⟨-, hrun⟩ | ⟨text, -, hrun⟩ | ⟨s', -, hrun⟩ |
      ⟨s', hlayer, hrun⟩
    · rw [hrun]
      exact Nat.zero_le _
    · rw [hrun] at hread ⊢
      have hcount := hone false (hread _ List.mem_cons_self)
      rw [List.length_singleton]
      omega
    · rw [hrun] at hread ⊢
      have hcount := hone true (hread _ List.mem_cons_self)
      rw [List.length_singleton]
      omega
    · rw [hrun] at hread ⊢
      have hcount := hone false (hread _ List.mem_cons_self)
      have hrest := ih (s := s') (fun c hc => hread c (List.mem_cons_of_mem _ hc))
        (fun _ h => unread_readType (of_decide_eq_true h))
      obtain ⟨handler, packet, world, hhandler, hok, rfl⟩ := hlayer
      have hless := hd _ _ hhandler _ _ _ _ _ hok
      rw [List.length_cons]
      dsimp only at hrest
      omega

/-! ## The dispatch -/

theorem traced_handlers (d : DefaultPacketDispatcher ω) (packet : Packet) (world : ω) :
    (d.traced packet world).handlers = (d.tracedLoop maxLayerCount ⟨0, packet, world⟩).1 := by
  unfold traced
  dsimp only
  cases (d.tracedLoop maxLayerCount ⟨0, packet, world⟩).2 with
  | error text => rfl
  | ok r => rfl

theorem traced_processors {s : Dispatch ω} {processed : Bool}
    (h : (d.tracedLoop maxLayerCount ⟨0, packet, world⟩).2 = .ok (processed, s)) :
    (d.traced packet world).processors =
      (tracedProcessors d.defaultProcessors processed s).1 := by
  unfold traced
  dsimp only
  rw [h]

theorem read_of_orderly (h : d.Orderly packet world) :
    ∀ c ∈ (d.traced packet world).handlers, c.read = true := by
  rw [traced_handlers]
  exact read_of_ready h.start fun k s₁ s₂ hk hlt hlayer => .inl (h.leaves k s₁ s₂ hk hlt hlayer)

theorem alone_of_orderly (h : d.Orderly packet world) :
    ((d.traced packet world).handlers.filter Call.processed).length +
      ((d.traced packet world).processors.filter id).length ≤ 1 := by
  rw [traced_handlers]
  rcases taken_of_loop (d := d) maxLayerCount ⟨0, packet, world⟩ with
    ⟨k, s₁, s₂, hk, hlt, htakes, hok, hone⟩ | ⟨-, hnone⟩
  · have hdecline := h.declines k s₁ s₂ hk hlt htakes
    rw [hone, traced_processors hok, (length_taken_iff _ _ _).mpr hdecline]
  · rw [hnone, Nat.zero_add]
    cases hresult : (d.tracedLoop maxLayerCount ⟨0, packet, world⟩).2 with
    | error text =>
      unfold traced
      dsimp only
      rw [hresult]
      exact Nat.zero_le 1
    | ok r =>
      rw [traced_processors hresult]
      exact length_taken_le _ _ _

theorem orderly_of_disciplined (h : d.Disciplined packet world) : d.Orderly packet world := by
  have hread := h.read
  have halone := h.alone
  rw [traced_handlers] at hread halone
  have hcalls : ∀ k s, d.Layers k ⟨0, packet, world⟩ s → k < maxLayerCount →
      d.handlers (readType s).msgType ≠ none → s.packet.stream.Readable := by
    intro k s hk hlt hsome
    obtain ⟨processed, hmem⟩ := mem_of_layers hk hlt hsome
    exact of_decide_eq_true (hread _ hmem)
  refine ⟨?_, ?_, ?_⟩
  · by_contra hnot
    obtain ⟨hunread, hsome⟩ := not_or.mp hnot
    refine hunread (hcalls 0 _ (.refl _) (by decide) ?_)
    rw [readType_of_not_readable hunread]
    exact hsome
  · intro n s s' hn hlt hlayer
    by_contra hunread
    exact hunread (hcalls (n + 1) s' (.tail hn hlayer) hlt (handler_after_layer hlayer hunread))
  · intro n s s' hn hlt htakes
    obtain ⟨m, hm⟩ := Nat.exists_eq_add_of_lt hlt
    obtain ⟨calls, hnone, hrun⟩ := tracedLoop_of_layers hn (m + 1)
    have hloop : d.tracedLoop maxLayerCount ⟨0, packet, world⟩ =
        (calls ++ [call s true], .ok (true, s')) := by
      rw [hm, show n + m + 1 = m + 1 + n by omega, hrun, tracedLoop_of_takes htakes]
    rw [traced_processors (by rw [hloop]), hloop] at halone
    refine (length_taken_iff _ true _).mp ?_
    rw [List.filter_append, hnone] at halone
    exact Nat.le_zero.mp (Nat.le_of_add_le_add_left halone)

end LayersLemmas

open LayersLemmas

/-! ## Results -/

/-- The dispatch with its calls is the dispatch. -/
theorem traced_result (d : DefaultPacketDispatcher ω) (packet : Packet) (world : ω) :
    (d.traced packet world).result = d.dispatchImpl packet world := by
  unfold traced dispatchImpl
  dsimp only
  rw [← tracedLoop_result]
  cases (d.tracedLoop maxLayerCount ⟨0, packet, world⟩).2 with
  | error text => rfl
  | ok r => exact tracedProcessors_result _ _ _

/-- When every call is for an id that was read, there are at most as many calls as bytes, unless a
handler adds bytes. -/
theorem length_calls_le {d : DefaultPacketDispatcher ω} (hd : d.OnlyConsumes) {packet : Packet}
    {world : ω} (hread : ∀ c ∈ (d.traced packet world).handlers, c.read = true) :
    (d.traced packet world).handlers.length ≤ packet.stream.unread.length := by
  rw [traced_handlers] at hread ⊢
  exact length_loop_le hd hread

/-- Every call is for an id that was read and one processor at most takes the packet exactly when
the layers leave something to read and the catch-all processors decline what was taken. -/
theorem disciplined_iff (d : DefaultPacketDispatcher ω) (packet : Packet) (world : ω) :
    d.Disciplined packet world ↔ d.Orderly packet world := by
  refine ⟨orderly_of_disciplined, fun h => ?_⟩
  have hread := read_of_orderly h
  exact ⟨hread, fun hd => length_calls_le hd hread, alone_of_orderly h⟩

/-- The dispatcher with one handler and one catch-all processor, which change nothing. -/
def constant (id : UInt8) (handles takes : Bool) : DefaultPacketDispatcher Unit where
  handlers := fun id' => if id' = id then some fun packet world => .ok (handles, packet, world)
    else none
  defaultProcessors := [fun _ packet world => .ok (takes, packet, world)]

/-- A handler that declines a packet of one byte is called 40 times, and a packet that a handler
takes is taken by a catch-all processor, too. -/
theorem exhausted_packet_calls_handler_again :
    ((constant 135 false false).traced ⟨1, .ofBytes [135]⟩ ()).handlers.length = 40 ∧
      ¬ (constant 135 false false).Disciplined ⟨1, .ofBytes [135]⟩ () ∧
      ¬ (constant 135 true true).Disciplined ⟨1, .ofBytes [135]⟩ () := by
  refine ⟨by decide +kernel, fun h => ?_, fun h => ?_⟩
  · exact absurd h.read (by decide +kernel)
  · exact absurd h.alone (by decide +kernel)

end DefaultPacketDispatcher
end Stormancer.Packets

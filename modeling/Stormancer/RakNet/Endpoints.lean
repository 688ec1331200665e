import Mathlib.Data.List.TakeWhile
import Stormancer.RakNet.Transport

/-!
# The endpoints that a connection is started to

`startNextPendingConnections` splits the endpoint at its colons, reads the second piece with
`std::atoi` and keeps 16 bits of the number. It does not look at the other pieces, nor at what
follows the digits. Where the number does not fit an `int`, the C library decides what `std::atoi`
gives; the results hold for every `CLibrary`.

Results:
1. `tryConnect_rejects`, `tryConnect_connects`: what the code makes of any endpoint.
2. `endpoint_iff`: it agrees with the grammar of endpoints exactly on the plain ones.
3. `connect_tries`: the call of `connect` that reaches this code.
4. `port_wraps`: a port that does not fit.
-/

namespace Stormancer.RakNet

/-! ## Definitions -/

/-- The value of a string of decimal digits. -/
def decimal (s : Str) : Nat := s.foldl (fun n c => 10 * n + (c.toNat - '0'.toNat)) 0

/-- The endpoint is a host, a colon and the decimal number of a port. -/
structure IsEndpoint (endpoint host : Str) (port : Nat) : Prop where
  host_ne_nil : host ≠ []
  host_no_colon : ':' ∉ host
  port_pos : 0 < port
  port_le : port ≤ 65535
  eq : ∃ portString : Str, endpoint = host ++ ':' :: portString ∧ portString ≠ [] ∧
    (∀ c ∈ portString, c.isDigit = true) ∧ decimal portString = port

/-- What a `const char*` parameter makes of a string. -/
def cString (s : Str) : Str := s.takeWhile (· != '\x00')

/-- `Connect` was called with the host and the port. -/
def Started (s s' : RakNetTransport) (r : Ref) (host : Str) (port : Nat) : Prop :=
  ∃ call : ConnectCall, s'.connects = s.connects ++ [call] ∧ call.request = r ∧
    cString call.host = host ∧ call.port.toNat = port

/-- `Connect` was not called, and the task of the request gets an exception. -/
def Failed (s s' : RakNetTransport) (r : Ref) (rq : ConnectionRequest) : Prop :=
  s'.connects = s.connects ∧
    ∃ text, s'.requests[r]? = some (rq.complete (.exception text))

/-- A connection is started to the host and port of an endpoint, and to nothing else. -/
structure HandlesEndpoint (s s' : RakNetTransport) (r : Ref) (rq : ConnectionRequest) : Prop where
  starts : ∀ host port, IsEndpoint rq.endpoint host port → Started s s' r host port
  fails : (¬ ∃ host port, IsEndpoint rq.endpoint host port) → Failed s s' r rq

/-- The endpoint does not pass the tests of the code; or it has one colon only, nothing but digits
after it, a number of at most 65535 there, and no NUL before it. -/
def plainEndpoint [CLibrary] (endpoint : Str) : Bool :=
  !validEndpoint endpoint ||
    match StringUtilities.stringSplitChar endpoint ':' with
    | [hostStr, portString] =>
      portString.all Char.isDigit && decide (decimal portString ≤ 65535) && !hostStr.contains '\x00'
    | _ => false

namespace EndpointLemmas

/-! ## Ports -/

theorem digit_not_blank {c : Char} (h : c.isDigit = true) :
    isBlank c = false ∧ c ≠ '-' ∧ c ≠ '+' ∧ c ≠ ':' := by
  refine ⟨?_, ?_, ?_, ?_⟩
  · unfold isBlank
    simp only [Bool.or_eq_false_iff, beq_eq_false_iff_ne]
    refine ⟨⟨⟨⟨⟨?_, ?_⟩, ?_⟩, ?_⟩, ?_⟩, ?_⟩ <;>
    · rintro rfl
      cases h
  all_goals
    rintro rfl
    cases h

theorem digits_eq_decimal {s : Str} (h : ∀ c ∈ s, c.isDigit = true) : digits s = decimal s := by
  unfold digits decimal
  rw [List.takeWhile_eq_self_iff.mpr h]

theorem written_eq_decimal {s : Str} (hne : s ≠ []) (h : ∀ c ∈ s, c.isDigit = true) :
    written s = decimal s := by
  obtain ⟨c, t, rfl⟩ := List.exists_cons_of_ne_nil hne
  obtain ⟨hblank, hminus, hplus, -⟩ := digit_not_blank (h c List.mem_cons_self)
  unfold written
  rw [List.dropWhile_cons_of_neg (by rw [hblank]; exact Bool.false_ne_true)]
  split
  · next heq =>
    cases heq
    exact absurd rfl hminus
  · next heq =>
    cases heq
    exact absurd rfl hplus
  · rw [digits_eq_decimal h]

/-- Every C library reads the numbers of ports. -/
theorem atoi_of_written [CLibrary] {s : Str} {n : Nat} (h : written s = n) (hle : n ≤ 65535) :
    atoi s = n := by
  unfold atoi
  rw [h]
  exact CLibrary.toInt_eq n (by omega) (by omega)

theorem portOf_nil [CLibrary] : portOf [] = 0 := by
  unfold portOf
  rw [atoi_of_written (n := 0) rfl (Nat.zero_le _)]
  rfl

theorem portOf_toNat [CLibrary] {s : Str} (hne : s ≠ []) (h : ∀ c ∈ s, c.isDigit = true)
    (hle : decimal s ≤ 65535) : (portOf s).toNat = decimal s := by
  have hmod : ((decimal s : Int) % 2 ^ 16).toNat = decimal s := by omega
  unfold portOf UInt16.ofInt
  rw [atoi_of_written (written_eq_decimal hne h) hle, hmod]
  exact UInt16.toNat_ofNat_of_lt' (Nat.lt_succ_of_le hle)

/-! ## The tests of the code -/

/-- An endpoint that passes the tests has two pieces. -/
theorem pieces_of_valid [CLibrary] {endpoint : Str} (h : validEndpoint endpoint = true) :
    ∃ hostStr portString rest,
      StringUtilities.stringSplitChar endpoint ':' = hostStr :: portString :: rest ∧
      portString.length < endpoint.length - 1 ∧ portOf portString ≠ 0 := by
  unfold validEndpoint at h
  split at h
  · next hostStr portString rest hsplit =>
    simp only [Bool.and_eq_true, Bool.not_eq_true', decide_eq_false_iff_not, Nat.not_le,
      bne_iff_ne] at h
    exact ⟨hostStr, portString, rest, hsplit, h⟩
  · cases h

theorem pieces_append {hostStr : Str} (h : ':' ∉ hostStr) (s : Str) :
    StringUtilities.stringSplitChar (hostStr ++ ':' :: s) ':' =
      hostStr :: StringUtilities.stringSplitChar s ':' := by
  rw [StringUtilities.stringSplitChar_eq, StringUtilities.stringSplitChar_eq]
  exact List.splitOn_append_cons_self_of_not_mem h s

theorem pieces_of_not_mem {s : Str} (h : ':' ∉ s) :
    StringUtilities.stringSplitChar s ':' = [s] := by
  rw [StringUtilities.stringSplitChar_eq, List.splitOn_eq_singleton h]

/-- Two pieces are what is before and after the only colon. -/
theorem eq_of_two_pieces {endpoint hostStr portString : Str}
    (h : StringUtilities.stringSplitChar endpoint ':' = [hostStr, portString]) :
    endpoint = hostStr ++ ':' :: portString ∧ ':' ∉ hostStr := by
  by_cases hmem : ':' ∈ endpoint
  · obtain ⟨a, b, rfl, ha⟩ := List.eq_append_cons_of_mem hmem
    rw [pieces_append ha] at h
    obtain ⟨rfl, hb⟩ := List.cons.inj h
    by_cases hmem' : ':' ∈ b
    · obtain ⟨c, d, rfl, hc⟩ := List.eq_append_cons_of_mem hmem'
      rw [pieces_append hc, StringUtilities.stringSplitChar_eq] at hb
      exact absurd (List.cons.inj hb).2 (List.splitOn_ne_nil ':' d)
    · rw [pieces_of_not_mem hmem'] at hb
      exact ⟨by rw [(List.cons.inj hb).1], ha⟩
  · rw [pieces_of_not_mem hmem] at h
    cases h

/-- The tests of the code let every endpoint pass. -/
theorem valid_of_isEndpoint [CLibrary] {endpoint host : Str} {port : Nat}
    (h : IsEndpoint endpoint host port) :
    ∃ portString : Str, validEndpoint endpoint = true ∧
      StringUtilities.stringSplitChar endpoint ':' = [host, portString] ∧
      (∀ c ∈ portString, c.isDigit = true) ∧ (portOf portString).toNat = port ∧
      decimal portString = port := by
  obtain ⟨portString, rfl, hne, hdigits, hvalue⟩ := h.eq
  have hcolon : ':' ∉ portString := fun hmem => (digit_not_blank (hdigits _ hmem)).2.2.2 rfl
  have hsplit := pieces_append h.host_no_colon portString
  rw [pieces_of_not_mem hcolon] at hsplit
  have hport : (portOf portString).toNat = port := by
    rw [portOf_toNat hne hdigits (hvalue ▸ h.port_le), hvalue]
  refine ⟨portString, ?_, hsplit, hdigits, hport, hvalue⟩
  have hhost := List.length_pos_of_ne_nil h.host_ne_nil
  have hpos := h.port_pos
  unfold validEndpoint
  rw [hsplit]
  simp only [Bool.and_eq_true, Bool.not_eq_true', decide_eq_false_iff_not, bne_iff_ne]
  constructor
  · rw [List.length_append, List.length_cons]
    omega
  · intro hzero
    rw [hzero] at hport
    exact absurd hport hpos.ne

/-- On a plain endpoint the tests of the code let nothing else pass. -/
theorem isEndpoint_of_plain [CLibrary] {endpoint : Str} (hplain : plainEndpoint endpoint = true)
    (hvalid : validEndpoint endpoint = true) :
    ∃ (host : Str) (port : Nat), IsEndpoint endpoint host port ∧ '\x00' ∉ host := by
  obtain ⟨hostStr, portString, rest, hsplit, hlength, hport⟩ := pieces_of_valid hvalid
  unfold plainEndpoint at hplain
  rw [hvalid, hsplit] at hplain
  cases rest with
  | cons piece rest => cases hplain
  | nil =>
    simp only [Bool.not_true, Bool.false_or, Bool.and_eq_true, decide_eq_true_eq,
      List.all_eq_true, Bool.not_eq_true', List.contains_eq_mem, decide_eq_false_iff_not]
      at hplain
    obtain ⟨⟨hdigits, hle⟩, hnul⟩ := hplain
    obtain ⟨rfl, hcolon⟩ := eq_of_two_pieces hsplit
    have hne : portString ≠ [] := by
      rintro rfl
      exact hport portOf_nil
    refine ⟨hostStr, decimal portString, ⟨?_, hcolon, ?_, hle, portString, rfl, hne, hdigits, rfl⟩,
      hnul⟩
    · rintro rfl
      simp at hlength
    · rw [← portOf_toNat hne hdigits hle]
      exact Nat.pos_of_ne_zero fun hzero => hport (UInt16.toNat_inj.mp hzero)

/-! ## What the property says about the calls of `Connect` -/

theorem cString_eq_iff {s : Str} : cString s = s ↔ '\x00' ∉ s := by
  unfold cString
  rw [List.takeWhile_eq_self_iff]
  constructor
  · intro h hmem
    have := h _ hmem
    simp at this
  · intro h c hc
    rw [bne_iff_ne]
    rintro rfl
    exact h hc

theorem not_started_of_same {s s' : RakNetTransport} {r : Ref} {host : Str} {port : Nat}
    (h : s'.connects = s.connects) : ¬ Started s s' r host port := by
  rintro ⟨call, hcall, -⟩
  rw [h] at hcall
  simp at hcall

theorem not_failed_of_call {s s' : RakNetTransport} {r : Ref} {rq : ConnectionRequest}
    {call : ConnectCall} (h : s'.connects = s.connects ++ [call]) : ¬ Failed s s' r rq := by
  rintro ⟨hsame, -⟩
  rw [h] at hsame
  simp at hsame

end EndpointLemmas

open EndpointLemmas RakNetTransport

/-! ## The code on any endpoint -/

/-- An endpoint that does not pass the tests, or any without an active peer. -/
theorem tryConnect_rejects [CLibrary] {s : RakNetTransport} {r : Ref} {rq : ConnectionRequest}
    (hr : s.requests[r]? = some rq)
    (h : validEndpoint rq.endpoint = false ∨ s.peerActive = false)
    (results : Ref → ConnectionAttemptResult) :
    Failed s (s.tryConnect results r) r rq := by
  have hset : ∀ (t : RakNetTransport) (text : Str), t.requests = s.requests →
      t.connects = s.connects → Failed s (t.setException r text) r rq := by
    intro t text hrequests hconnects
    refine ⟨hconnects, text, ?_⟩
    show (t.requests.modify r _)[r]? = _
    rw [hrequests, List.getElem?_modify_eq, hr]
    rfl
  unfold tryConnect
  rw [hr]
  dsimp only
  split
  · next hostStr portString rest hsplit =>
    split
    · exact hset s _ rfl rfl
    · next hlength =>
      split
      · exact hset _ _ rfl rfl
      · next hport =>
        split
        · exact hset _ _ rfl rfl
        · next hactive =>
          rcases h with hinvalid | hinactive
          · rw [validEndpoint, hsplit] at hinvalid
            simp [hlength, hport] at hinvalid
          · simp [hinactive] at hactive
  · exact hset s _ rfl rfl

/-- An endpoint that passes them: `Connect` gets its first two pieces. -/
theorem tryConnect_connects [CLibrary] {s : RakNetTransport} {r : Ref} {rq : ConnectionRequest}
    (hr : s.requests[r]? = some rq) (hvalid : validEndpoint rq.endpoint = true)
    (hactive : s.peerActive = true) {hostStr portString : Str} {rest : List Str}
    (hsplit : StringUtilities.stringSplitChar rq.endpoint ':' = hostStr :: portString :: rest)
    (results : Ref → ConnectionAttemptResult) :
    (s.tryConnect results r).connects =
      s.connects ++ [⟨r, hostStr, portOf portString, results r⟩] := by
  rw [validEndpoint, hsplit] at hvalid
  simp only [Bool.and_eq_true, Bool.not_eq_true', decide_eq_false_iff_not, bne_iff_ne] at hvalid
  unfold tryConnect
  rw [hr]
  dsimp only
  rw [hsplit]
  dsimp only
  rw [if_neg hvalid.1, if_neg hvalid.2, if_neg (by rw [hactive]; decide)]
  unfold connectPeer
  dsimp only
  split <;> rfl

/-- For every endpoint: a connection is started exactly to an endpoint of the grammar, with its
host and port, when the endpoint is plain; without an active peer, when it is none. -/
theorem endpoint_iff [CLibrary] {s : RakNetTransport} {r : Ref} {rq : ConnectionRequest}
    (hr : s.requests[r]? = some rq) (results : Ref → ConnectionAttemptResult) :
    HandlesEndpoint s (s.tryConnect results r) r rq ↔
      (s.peerActive = true → plainEndpoint rq.endpoint = true) ∧
      (s.peerActive = false → ¬ ∃ host port, IsEndpoint rq.endpoint host port) := by
  constructor
  · intro h
    refine ⟨fun hactive => ?_, fun hinactive => ?_⟩
    · cases hvalid : validEndpoint rq.endpoint with
      | false =>
        rw [plainEndpoint, hvalid]
        rfl
      | true =>
        obtain ⟨hostStr, portString, rest, hsplit, -⟩ := pieces_of_valid hvalid
        have hcall := tryConnect_connects hr hvalid hactive hsplit results
        by_cases hex : ∃ host port, IsEndpoint rq.endpoint host port
        · obtain ⟨host, port, he⟩ := hex
          obtain ⟨portString', -, hsplit', hdigits, -, hvalue⟩ := valid_of_isEndpoint he
          obtain ⟨call, hcall', -, hhost, -⟩ := h.starts host port he
          rw [hsplit'] at hsplit
          obtain ⟨rfl, hrest⟩ := List.cons.inj hsplit
          obtain ⟨rfl, rfl⟩ := List.cons.inj hrest
          rw [hcall, List.append_cancel_left_eq] at hcall'
          obtain ⟨rfl, -⟩ := List.cons.inj hcall'
          have hnul : '\x00' ∉ host := cString_eq_iff.mp hhost
          rw [plainEndpoint, hsplit']
          simp [List.all_eq_true.mpr hdigits, hvalue, he.port_le, hnul]
        · exact absurd (h.fails hex) (not_failed_of_call hcall)
    · rintro ⟨host, port, he⟩
      have hsame := (tryConnect_rejects hr (.inr hinactive) results).1
      exact not_started_of_same hsame (h.starts host port he)
  · rintro ⟨hplain, hnone⟩
    cases hactive : s.peerActive with
    | false =>
      refine ⟨fun host port he => absurd ⟨host, port, he⟩ (hnone hactive), fun _ => ?_⟩
      exact tryConnect_rejects hr (.inr hactive) results
    | true =>
      cases hvalid : validEndpoint rq.endpoint with
      | false =>
        refine ⟨fun host port he => ?_, fun _ => tryConnect_rejects hr (.inl hvalid) results⟩
        obtain ⟨-, hvalid', -⟩ := valid_of_isEndpoint he
        rw [hvalid] at hvalid'
        cases hvalid'
      | true =>
        obtain ⟨host, port, he, hnul⟩ := isEndpoint_of_plain (hplain hactive) hvalid
        refine ⟨fun host' port' he' => ?_, fun hno => absurd ⟨host, port, he⟩ hno⟩
        obtain ⟨portString, -, hsplit, -, hport, -⟩ := valid_of_isEndpoint he
        obtain ⟨portString', -, hsplit', -, hport', -⟩ := valid_of_isEndpoint he'
        rw [hsplit] at hsplit'
        obtain ⟨rfl, hrest⟩ := List.cons.inj hsplit'
        obtain ⟨rfl, -⟩ := List.cons.inj hrest
        exact ⟨_, tryConnect_connects hr hvalid hactive hsplit results, rfl,
          cString_eq_iff.mpr hnul, hport'⟩

/-- With no connection pending, `connect` comes to its own request at once. -/
theorem connect_tries [CLibrary] {s : RakNetTransport} (h : s.pendingConnections = [])
    (endpoint id parentId : Str) (ct : Token) (results : Ref → ConnectionAttemptResult) :
    ∃ t : RakNetTransport,
      s.connect endpoint id parentId ct results = t.tryConnect results s.requests.length ∧
      t.requests[s.requests.length]? = some ⟨.unset, endpoint, ct, id, parentId⟩ ∧
      t.connects = s.connects ∧ t.peerActive = s.peerActive := by
  have hconnect : s.connect endpoint id parentId ct results =
      startFrom results [s.requests.length] (s.push endpoint id parentId ct) := by
    unfold connect startNextPendingConnections push
    rw [h]
    rfl
  have hnew : (s.push endpoint id parentId ct).requests[s.requests.length]? =
      some ⟨.unset, endpoint, ct, id, parentId⟩ := List.getElem?_concat_length
  rw [hconnect, startFrom]
  split
  · exact ⟨(s.push endpoint id parentId ct).pop, rfl, hnew, rfl, rfl⟩
  · exact ⟨_, rfl, hnew, rfl, rfl⟩

/-! ## Examples -/

section Examples

attribute [local instance] CLibrary.long64

/-- Past its range a number counts as the bound, whose low bits are all set. -/
example : portOf "9223372036854775808".toList = 65535 ∧ portOf "4294967297".toList = 1 ∧
    @portOf CLibrary.int32 "4294967297".toList = 65535 := by
  decide

/-- A transport that runs, with one request. -/
def oneRequest (endpoint : Str) : RakNetTransport :=
  { RakNetTransport.init with
    requests := [⟨.unset, endpoint, none, [], []⟩]
    pendingConnections := [0]
    isRunning := true
    peerActive := true }

theorem endpoint_local : HandlesEndpoint (oneRequest "localhost:30000".toList)
    ((oneRequest "localhost:30000".toList).tryConnect (fun _ => .connectionAttemptStarted) 0) 0
    ⟨.unset, "localhost:30000".toList, none, [], []⟩ :=
  (endpoint_iff rfl _).mpr ⟨fun _ => by decide, fun h => by cases h⟩

/-- A port that does not fit 16 bits: the connection goes to port 1. -/
theorem port_wraps : ¬ ∀ (s : RakNetTransport) (r : Ref) (rq : ConnectionRequest)
    (results : Ref → ConnectionAttemptResult), s.requests[r]? = some rq → s.peerActive = true →
      HandlesEndpoint s (s.tryConnect results r) r rq := by
  intro hall
  have hnone : ¬ ∃ host port, IsEndpoint "h:65537".toList host port := by
    rintro ⟨host, port, he⟩
    obtain ⟨portString, -, hsplit, -, -, hvalue⟩ := valid_of_isEndpoint he
    have hpieces : StringUtilities.stringSplitChar "h:65537".toList ':' =
        ["h".toList, "65537".toList] := by decide
    rw [hpieces] at hsplit
    obtain ⟨-, hrest⟩ := List.cons.inj hsplit
    obtain ⟨rfl, -⟩ := List.cons.inj hrest
    have hle := he.port_le
    rw [← hvalue] at hle
    revert hle
    decide
  have hfailed := (hall (oneRequest "h:65537".toList) 0 _ (fun _ => .connectionAttemptStarted)
    rfl rfl).fails hnone
  have hcalls := congrArg List.length hfailed.1
  revert hcalls
  decide

end Examples

end Stormancer.RakNet

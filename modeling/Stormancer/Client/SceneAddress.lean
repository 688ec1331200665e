import Mathlib.Data.List.GetD
import Stormancer.Lib.Lines
import Stormancer.Utilities.StringSplit

/-!
# `SceneAddress`

`parse` reads `{sceneId}`, `scene:/{sceneId}`, `scene:/{app}/{sceneId}`,
`scene:/{account}/{app}/{sceneId}` and `scene:/{cluster}/{account}/{app}/{sceneId}`, and fills in
the defaults; `toUri` prints the last of these forms. The tables of scenes have the printed
address as their key.

Results:
1. `SceneAddressLemmas.parse_toUri`: an address whose components are not empty and have no slash
   is read back.
2. `canonical_iff`: what `parse` gives is read back exactly when the urn ends in a scene id
   without a slash.
3. `id_with_slash_not_kept`: the id `a/b` is printed as an address of the scene `b`.
-/

namespace Stormancer.Client

/-! ## Data -/

structure SceneAddress where
  clusterId : Str
  app : Str
  account : Str
  sceneId : Str
deriving DecidableEq

/-- The strings between two slashes that `parse` can give back. -/
def IsSegment (s : Str) : Prop := s ≠ [] ∧ '/' ∉ s

instance (s : Str) : Decidable (IsSegment s) := inferInstanceAs (Decidable (_ ∧ _))

namespace SceneAddress

/-- `"scene:"`. -/
def scheme : Str := ['s', 'c', 'e', 'n', 'e', ':']

def toUri (a : SceneAddress) : Str :=
  scheme ++ ['/'] ++ a.clusterId ++ ['/'] ++ a.account ++ ['/'] ++ a.app ++ ['/'] ++ a.sceneId

/-- `address.x == "" ? defaultX : address.x`. -/
def orDefault (s default : Str) : Str := if s = [] then default else s

/-- `parse` before it fills in the defaults. -/
def parseUrn (urn : Str) : SceneAddress :=
  if StringUtilities.find urn scheme 0 ≠ some 0 then
    { clusterId := [], app := [], account := [], sceneId := urn }
  else
    let tokens := Lines.readAll '/' urn
    { sceneId := tokens.getD (tokens.length - 1) []
      app := if tokens.length > 2 then tokens.getD (tokens.length - 2) [] else []
      account := if tokens.length > 3 then tokens.getD (tokens.length - 3) [] else []
      clusterId := if tokens.length > 4 then tokens.getD (tokens.length - 4) [] else [] }

def parse (urn defaultClusterId defaultAccount defaultApp : Str) : SceneAddress :=
  let address := parseUrn urn
  { sceneId := address.sceneId
    clusterId := orDefault address.clusterId defaultClusterId
    account := orDefault address.account defaultAccount
    app := orDefault address.app defaultApp }

/-- The components are not empty and have no slash. -/
structure Segments (a : SceneAddress) : Prop where
  clusterId : IsSegment a.clusterId
  app : IsSegment a.app
  account : IsSegment a.account
  sceneId : IsSegment a.sceneId

end SceneAddress

/-- A bare id is not empty and has no slash, and a `scene:` urn does not end in two slashes. -/
def EndsInSceneId (urn : Str) : Prop :=
  if SceneAddress.scheme <+: urn then ¬ ['/', '/'] <:+ urn else IsSegment urn

instance (urn : Str) : Decidable (EndsInSceneId urn) :=
  inferInstanceAs (Decidable (if SceneAddress.scheme <+: urn then ¬ ['/', '/'] <:+ urn
    else IsSegment urn))

namespace SceneAddressLemmas

open SceneAddress

/-! ## The prefix -/

theorem find_eq_zero_iff (urn separator : Str) :
    StringUtilities.find urn separator 0 = some 0 ↔ separator <+: urn := by
  unfold StringUtilities.find
  rw [Nat.sub_zero, List.range'_succ, List.find?_cons, List.drop_zero]
  cases hprefix : separator.isPrefixOf urn with
  | true => simp [← List.isPrefixOf_iff_prefix, hprefix]
  | false =>
    rw [← List.isPrefixOf_iff_prefix, hprefix]
    constructor
    · intro h
      have hmem := List.mem_range'_1.mp (List.mem_of_find?_eq_some h)
      omega
    · intro h
      cases h

theorem parseUrn_of_bare {urn : Str} (h : ¬ scheme <+: urn) :
    parseUrn urn = ⟨[], [], [], urn⟩ := by
  unfold parseUrn
  rw [if_pos (mt (find_eq_zero_iff urn _).mp h)]

theorem parseUrn_of_uri {urn : Str} (h : scheme <+: urn) {tokens : List Str}
    (htokens : Lines.readAll '/' urn = tokens) :
    parseUrn urn =
      { sceneId := tokens.getD (tokens.length - 1) []
        app := if tokens.length > 2 then tokens.getD (tokens.length - 2) [] else []
        account := if tokens.length > 3 then tokens.getD (tokens.length - 3) [] else []
        clusterId := if tokens.length > 4 then tokens.getD (tokens.length - 4) [] else [] } := by
  unfold parseUrn
  rw [if_neg (not_not_intro ((find_eq_zero_iff urn _).mpr h)), htokens]

/-! ## Printed addresses -/

theorem prefix_toUri (a : SceneAddress) : scheme <+: a.toUri := by
  refine ⟨'/' :: (a.clusterId ++ ['/'] ++ a.account ++ ['/'] ++ a.app ++ ['/'] ++ a.sceneId), ?_⟩
  simp [toUri]

theorem tokens_toUri {a : SceneAddress} (hcluster : '/' ∉ a.clusterId)
    (haccount : '/' ∉ a.account) (happ : '/' ∉ a.app) :
    Lines.readAll '/' a.toUri =
      scheme :: a.clusterId :: a.account :: a.app :: Lines.readAll '/' a.sceneId := by
  have huri : a.toUri = scheme ++ '/' :: (a.clusterId ++ '/' :: (a.account ++
      '/' :: (a.app ++ '/' :: a.sceneId))) := by
    simp [toUri]
  rw [huri, Lines.readAll_append_delim (by decide), Lines.readAll_append_delim hcluster,
    Lines.readAll_append_delim haccount, Lines.readAll_append_delim happ]

theorem orDefault_of_segment {s : Str} (h : IsSegment s) (default : Str) :
    orDefault s default = s := if_neg h.1

/-- An address whose components are not empty and have no slash is read back. -/
theorem parse_toUri {a : SceneAddress} (h : a.Segments) (clusterId account app : Str) :
    parse a.toUri clusterId account app = a := by
  have htokens := tokens_toUri h.clusterId.2 h.account.2 h.app.2
  rw [Lines.readAll_of_not_mem h.sceneId.1 h.sceneId.2] at htokens
  have hurn : parseUrn a.toUri = a := parseUrn_of_uri (prefix_toUri a) htokens
  unfold parse
  rw [hurn]
  simp only [orDefault_of_segment h.clusterId, orDefault_of_segment h.account,
    orDefault_of_segment h.app]

/-! ## The components -/

theorem getD_not_mem {tokens : List Str} (h : ∀ t ∈ tokens, '/' ∉ t) (i : Nat) :
    '/' ∉ tokens.getD i [] := by
  rcases Nat.lt_or_ge i tokens.length with hi | hi
  · rw [List.getD_eq_getElem _ _ hi]
    exact h _ (List.getElem_mem hi)
  · rw [List.getD_eq_default _ _ hi]
    exact List.not_mem_nil

theorem ite_not_mem {c : Prop} [Decidable c] {s : Str} (h : '/' ∉ s) :
    '/' ∉ (if c then s else []) := by
  split
  · exact h
  · exact List.not_mem_nil

/-- Only the scene id of a parsed urn can have a slash, and only if the urn is a bare id. -/
theorem parseUrn_not_mem (urn : Str) :
    '/' ∉ (parseUrn urn).clusterId ∧ '/' ∉ (parseUrn urn).account ∧ '/' ∉ (parseUrn urn).app ∧
      (scheme <+: urn → '/' ∉ (parseUrn urn).sceneId) := by
  by_cases h : scheme <+: urn
  · have hpieces := getD_not_mem fun t (ht : t ∈ Lines.readAll '/' urn) =>
      Lines.not_mem_of_mem_readAll ht
    rw [parseUrn_of_uri h rfl]
    exact ⟨ite_not_mem (hpieces _), ite_not_mem (hpieces _), ite_not_mem (hpieces _),
      fun _ => hpieces _⟩
  · rw [parseUrn_of_bare h]
    exact ⟨List.not_mem_nil, List.not_mem_nil, List.not_mem_nil, fun h' => absurd h' h⟩

theorem orDefault_segment {s default : Str} (hs : '/' ∉ s) (hdefault : IsSegment default) :
    IsSegment (orDefault s default) := by
  unfold orDefault
  split
  · exact hdefault
  · next hne => exact ⟨hne, hs⟩

theorem sceneId_parse (urn clusterId account app : Str) :
    (parse urn clusterId account app).sceneId = (parseUrn urn).sceneId := rfl

/-! ## The scene id -/

theorem getD_last {tokens : List Str} {t : Str} (h : tokens.getLast? = some t) :
    tokens.getD (tokens.length - 1) [] = t := by
  rw [List.getLast?_eq_getElem?] at h
  rw [List.getD_eq_getElem?_getD, h, Option.getD_some]

/-- The scene id of an urn is one that can be read back exactly when the urn ends in it. -/
theorem sceneId_segment_iff (urn : Str) :
    IsSegment (parseUrn urn).sceneId ↔ EndsInSceneId urn := by
  unfold EndsInSceneId
  by_cases h : scheme <+: urn
  · have hslash := (parseUrn_not_mem urn).2.2.2 h
    have hne : urn ≠ [] := by
      rintro rfl
      exact absurd h (by decide)
    have hslash' : urn ≠ ['/'] := by
      rintro rfl
      exact absurd h (by decide)
    have htokens : Lines.readAll '/' urn ≠ [] := Lines.readFrom_ne_nil [] hne
    have ht := List.getLast?_eq_some_getLast htokens
    generalize (Lines.readAll '/' urn).getLast htokens = t at ht
    have hid : (parseUrn urn).sceneId = t := by
      rw [parseUrn_of_uri h rfl]
      exact getD_last ht
    have hlast := Lines.getLast?_readAll hslash'
    rw [hid] at hslash
    rw [if_pos h, ← hlast, ht, hid, Option.some.injEq]
    exact ⟨fun hseg => hseg.1, fun hne => ⟨hne, hslash⟩⟩
  · rw [if_neg h, parseUrn_of_bare h]

/-- The scene id of a printed address that is read has no slash, and it is not empty when the
address that was printed has an app. -/
theorem segment_of_reparsed {a : SceneAddress} (hcluster : IsSegment a.clusterId)
    (haccount : IsSegment a.account) (happ : IsSegment a.app)
    (hid : (parseUrn a.toUri).sceneId = a.sceneId) : IsSegment a.sceneId := by
  refine ⟨?_, ?_⟩
  · intro hempty
    have htokens := tokens_toUri hcluster.2 haccount.2 happ.2
    rw [hempty] at htokens hid
    have hread : (parseUrn a.toUri).sceneId = a.app := by
      rw [parseUrn_of_uri (prefix_toUri a) htokens]
      rfl
    exact happ.1 (hread.symm.trans hid)
  · rw [← hid]
    exact (parseUrn_not_mem _).2.2.2 (prefix_toUri a)

end SceneAddressLemmas

open SceneAddressLemmas in
/-- What `parse` gives is read back exactly when the urn ends in a scene id without a slash; an
address of four segments is read back whatever the defaults are. -/
theorem canonical_iff {clusterId account app : Str} (hcluster : IsSegment clusterId)
    (haccount : IsSegment account) (happ : IsSegment app) :
    (∀ urn, SceneAddress.parse (SceneAddress.parse urn clusterId account app).toUri
        clusterId account app = SceneAddress.parse urn clusterId account app ↔
      EndsInSceneId urn) ∧
    ∀ (a : SceneAddress) (clusterId' account' app' : Str), a.Segments →
      SceneAddress.parse a.toUri clusterId' account' app' = a := by
  refine ⟨fun urn => ?_, fun a _ _ _ ha => parse_toUri ha _ _ _⟩
  obtain ⟨hc, ha, hp, -⟩ := parseUrn_not_mem urn
  have hcluster' := orDefault_segment hc hcluster
  have haccount' := orDefault_segment ha haccount
  have happ' := orDefault_segment hp happ
  rw [← sceneId_segment_iff, ← sceneId_parse urn clusterId account app]
  generalize haddress : SceneAddress.parse urn clusterId account app = a
  have hsegments : IsSegment a.clusterId ∧ IsSegment a.account ∧ IsSegment a.app := by
    rw [← haddress]
    exact ⟨hcluster', haccount', happ'⟩
  obtain ⟨hcluster', haccount', happ'⟩ := hsegments
  constructor
  · intro h
    have hid := congrArg SceneAddress.sceneId h
    rw [sceneId_parse] at hid
    exact segment_of_reparsed hcluster' haccount' happ' hid
  · intro h
    exact parse_toUri ⟨hcluster', happ', haccount', h⟩ _ _ _

theorem canonical_lobby : SceneAddress.parse
      (SceneAddress.parse (SceneAddress.scheme ++ ['/', 'g', '/', 'l']) ['c'] ['d'] ['e']).toUri
      ['c'] ['d'] ['e'] =
    SceneAddress.parse (SceneAddress.scheme ++ ['/', 'g', '/', 'l']) ['c'] ['d'] ['e'] :=
  ((canonical_iff (by decide) (by decide) (by decide)).1 _).mpr (by decide)

/-- The bare id `a/b` is printed as an address that is read as the scene `b` of the app `a`. -/
theorem id_with_slash_not_kept : ¬ ∀ clusterId account app : Str, IsSegment clusterId →
    IsSegment account → IsSegment app →
    (∀ urn, SceneAddress.parse (SceneAddress.parse urn clusterId account app).toUri
        clusterId account app = SceneAddress.parse urn clusterId account app) ∧
    ∀ (a : SceneAddress) (clusterId' account' app' : Str), a.Segments →
      SceneAddress.parse a.toUri clusterId' account' app' = a := by
  intro hall
  have hkept := (hall ['c'] ['d'] ['e'] (by decide) (by decide) (by decide)).1 ['a', '/', 'b']
  exact absurd hkept (by decide)

end Stormancer.Client

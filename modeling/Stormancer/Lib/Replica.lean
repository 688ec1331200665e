import Mathlib.Algebra.Order.Ring.Int
import Mathlib.Data.List.Pairwise
import Mathlib.Data.List.Nodup

/-!
# Replicas of a versioned state

A server goes through the states `state 1`, `state 2`, ... , and `update (v + 1)` is what took
it from `state v` to `state (v + 1)`. A replica holds a version and a copy of the state at that
version. It moves by one version with an update, or to any version with a whole state.

Results:
1. `Tracks.next`: the update after the version of the replica keeps it a copy.
2. `Applied.next`, `Applied.jump`, `Applied.nodup`: as long as no whole state takes the replica
   back behind an update that it applied, the versions it applied are increasing, so none is
   applied twice.
-/

namespace Replica

variable {σ υ : Type*} {apply : υ → σ → σ}

/-- What a server went through. Its versions are positive. -/
structure History (apply : υ → σ → σ) where
  state : Int → σ
  update : Int → υ
  state_succ : ∀ v, 0 < v → state (v + 1) = apply (update (v + 1)) (state v)

/-! ## Copies -/

/-- `copy` is the state of the server at the version. -/
def Tracks (h : History apply) (version : Int) (copy : σ) : Prop := copy = h.state version

theorem Tracks.next {h : History apply} {version : Int} {copy : σ} (hv : 0 < version)
    (ht : Tracks h version copy) :
    Tracks h (version + 1) (apply (h.update (version + 1)) copy) := by
  unfold Tracks at ht ⊢
  rw [ht, h.state_succ version hv]

/-! ## Which updates were applied -/

/-- The versions of the updates that a replica applied, oldest first. -/
structure Applied (log : List Int) (version : Int) : Prop where
  increasing : log.Pairwise (· < ·)
  le : ∀ w ∈ log, w ≤ version

namespace Applied

theorem nil (version : Int) : Applied [] version := ⟨List.Pairwise.nil, by simp⟩

theorem next {log : List Int} {version : Int} (h : Applied log version) :
    Applied (log ++ [version + 1]) (version + 1) := by
  refine ⟨List.pairwise_append.mpr ⟨h.increasing, List.pairwise_singleton _ _, ?_⟩, ?_⟩
  · intro w hw w' hw'
    rw [List.mem_singleton.mp hw']
    have := h.le w hw
    omega
  · intro w hw
    rcases List.mem_append.mp hw with hw | hw
    · have := h.le w hw
      omega
    · rw [List.mem_singleton.mp hw]

theorem jump {log : List Int} {version version' : Int} (h : Applied log version)
    (hle : ∀ w ∈ log, w ≤ version') : Applied log version' :=
  ⟨h.increasing, hle⟩

theorem nodup {log : List Int} {version : Int} (h : Applied log version) : log.Nodup :=
  h.increasing.imp fun hlt => ne_of_lt hlt

end Applied

end Replica

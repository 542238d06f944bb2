import DepSpec.Service.Watch

set_option autoImplicit false

/-! # A waiter misses no request

Between two steps of a waiter anything may happen to the request to stop, and the reason may come at
any of these moments. What a waiter knows fits the watched value all the same (`Waiting.Fits`): it was
told nothing but the reason, and if it sleeps on the present version there is none. So a waiter that
is left alone is told the reason if there is one, and nothing otherwise (`Waiting.Fits.settle`). -/

namespace DepSpec

namespace Waiting

/-- What a waiter knows of a watched value. -/
def Fits (v : Watch (Option StopReason)) : Waiting → Prop
  | .told reason => v.value = some reason
  | .sleeping seen => seen ≤ v.version ∧ (seen = v.version → v.value = none)
  | .begun | .looking _ => True

namespace Fits

variable {v : Watch (Option StopReason)} {w : Waiting}

/-- What was told is the reason. -/
theorem value_eq (h : Fits v w) {reason : StopReason} (htold : w.reason? = some reason) :
    v.value = some reason := by
  cases w with
  | told first =>
    cases htold
    exact h
  | begun | looking | sleeping => cases htold

/-- A reason that is sent where there is one changes nothing; where there is none it makes a version
    that nobody has seen. -/
theorem send (h : Fits v w) (reason : StopReason) :
    Fits (v.sendIfModified (Cancellation.modify reason)).2 w := by
  unfold Watch.sendIfModified
  cases hvalue : v.value with
  | some first =>
    simp only [Cancellation.modify]
    rwa [← hvalue]
  | none =>
    simp only [Cancellation.modify]
    cases w with
    | told told =>
      have hsome : v.value = some told := h
      rw [hvalue] at hsome
      cases hsome
    | sleeping seen =>
      have hlt : seen < v.version + 1 := Nat.lt_succ_of_le h.1
      exact ⟨Nat.le_of_lt hlt, fun heq => absurd heq (Nat.ne_of_lt hlt)⟩
    | begun | looking => trivial

theorem step (h : Fits v w) : Fits v (w.step v) := by
  cases w with
  | begun => trivial
  | looking seen =>
    rw [Waiting.step]
    split
    · next reason hvalue => exact hvalue
    · next hvalue => exact ⟨Nat.le_refl _, fun _ => hvalue⟩
  | sleeping seen =>
    rw [Waiting.step]
    split
    · exact h
    · trivial
  | told reason => exact h

/-- **A waiter that is left alone is told the reason**, if there is one. -/
theorem settle (h : Fits v w) : (w.settle v).reason? = v.value := by
  cases hvalue : v.value with
  | none =>
    -- it is told nothing but the reason
    have hsettled : Fits v (w.settle v) := h.step.step
    cases htold : (w.settle v).reason? with
    | none => rfl
    | some reason => rw [← hsettled.value_eq htold, hvalue]
  | some reason =>
    have hlook (seen : Nat) : Waiting.step v (.looking seen) = .told reason := by
      rw [Waiting.step, hvalue]
    rw [Waiting.settle]
    cases w with
    | begun =>
      rw [Waiting.step, hlook]
      rfl
    | looking seen =>
      rw [hlook]
      rfl
    | sleeping seen =>
      -- a waiter that has seen this version would have seen the reason
      have hnew : v.version ≠ seen := by
        intro hseen
        rw [h.2 hseen.symm] at hvalue
        cases hvalue
      have hwakes : Waiting.step v (.sleeping seen) = .looking v.version := if_neg hnew
      rw [hwakes, hlook]
      rfl
    | told first =>
      have hfirst : v.value = some first := h
      rw [← hvalue, hfirst]
      rfl

/-- Others may use a handle at any moment. -/
theorem apply {c : Cancellation} (h : Fits c.channel w) (handle : Nat) (op : Cancellation.Op) :
    Fits (c.apply handle op).2.channel w := by
  unfold Cancellation.apply
  by_cases hhandle : handle < c.handles
  · rw [if_pos hhandle]
    cases op with
    | cancel reason =>
      have hsent := h.send reason
      rwa [Cancellation.sendIfModified_channel] at hsent
    | clone | isCancelled | reason | wait => exact h
  · rw [if_neg hhandle]
    exact h

end Fits

end Waiting

end DepSpec

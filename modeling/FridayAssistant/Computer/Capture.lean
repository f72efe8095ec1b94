import FridayAssistant.Basic
/-!
# Capturing a window (capture.py, cua_driver.py)

`computer.capture` asks the driver for one element more than it reports, so that the extra one tells
whether the report is cut. The driver's own limit is the same configured number
(computer_composition.py:83), so the extra element never comes when that number itself is asked for.

`element` reads one element of the driver's answer (`_element`, cua_driver.py:524), `index` is its
`element_index`. What the driver process answers is not part of the repository: `answer` is a
parameter, and `AnswersFirst` is what is assumed of it.
-/
namespace Friday.Computer
open PyJson

inductive ComputerError where
  | toolInputInvalid (message : String)
  | windowGone (message : String)
  | driverFailed
  | valueError (message : String)
  deriving DecidableEq

def maxElementsCeiling : Nat := 5000

/-- `ComputerCaptureSettings`. -/
structure ComputerCaptureSettings where
  maxElements : Nat
  pos : 1 ≤ maxElements
  le : maxElements ≤ maxElementsCeiling

/-- `optional_bounded_int` (tool_input.py:31), with the bound for a default. -/
def optionalBoundedInt (name : String) (maximum : Nat) : Option JsonValue → Except ComputerError Nat
  | none => .ok maximum
  | some (.int n) =>
    if n < 1 ∨ maximum < n then
      .error (.toolInputInvalid (name ++ " must be an integer between 1 and " ++ toString maximum))
    else .ok n.toNat
  | some _ => .error (.toolInputInvalid (name ++ " must be an integer"))

/-- `_probe_budget` (capture.py:142). -/
def probeBudget (maxElements : Nat) : Nat := min (maxElements + 1) maxElementsCeiling

section
variable {ρ κ : Type} (element : ρ → Except ComputerError κ) (index : κ → Int)
  (answer : Nat → List ρ → List ρ)

/-- `CuaDriverComputerDriver.capture` (cua_driver.py:220), whose `CuaDriverSettings.max_elements` is
`limit`: it sends `max_elements` and reads whatever elements come back. -/
def driverCapture (limit requested : Nat) (window : List ρ) : Except ComputerError (List κ) :=
  (answer (min requested limit) window).mapM element

/-- The driver process answers `max_elements` with the first elements of the window. -/
def AnswersFirst : Prop := ∀ maxElements window, answer maxElements window = window.take maxElements

/-- `ScreenSnapshot.__post_init__`. -/
def snapshot (elements : List κ) : Except ComputerError (List κ) :=
  if (elements.map index).Nodup then .ok elements
  else .error (.valueError "ScreenSnapshot.elements must not repeat an element_index")

/-- `ComputerCapture.capture` (capture.py:79), wired as `build_computer_gateway` does: the elements
it reports, and `elements_truncated`. `window` is what `find_window` finds. -/
def capture (settings : ComputerCaptureSettings) (window : Option (List ρ))
    (requested : Option JsonValue) : Except ComputerError (List κ × Bool) := do
  let maxElements ← optionalBoundedInt "max_elements" settings.maxElements requested
  match window with
  | none => .error (.windowGone "that window no longer exists; list the windows again")
  | some window => do
    let elements ← driverCapture element answer settings.maxElements (probeBudget maxElements) window
    let shown ← snapshot index (elements.take maxElements)
    return (shown, decide (elements.length > shown.length))

variable {element index answer}

theorem length_of_mapM : ∀ {window : List ρ} {elements : List κ},
    window.mapM element = .ok elements → elements.length = window.length
  | [], _, h => by cases h; rfl
  | raw :: window, _, h => by
    rw [List.mapM_cons] at h
    obtain ⟨e, -, rest, hrest, h⟩ := bind_ok₂ h
    cases h
    exact congrArg (· + 1) (length_of_mapM hrest)

theorem optionalBoundedInt_le {name : String} {maximum n : Nat} {requested : Option JsonValue}
    (h : optionalBoundedInt name maximum requested = .ok n) : n ≤ maximum := by
  unfold optionalBoundedInt at h
  split at h
  · cases h
    exact le_refl _
  · split at h
    · cases h
    · cases h
      omega
  · cases h

/-- **Truncation is never hidden** exactly when fewer elements are asked for than the configured
number, or the window has no more than that. -/
theorem truncation_reported {settings : ComputerCaptureSettings} {window : List ρ}
    {requested : Option JsonValue} {n : Nat} {shown : List κ} {truncated : Bool}
    (hanswer : AnswersFirst answer)
    (hn : optionalBoundedInt "max_elements" settings.maxElements requested = .ok n)
    (h : capture element index answer settings (some window) requested = .ok (shown, truncated)) :
    shown.length ≤ settings.maxElements ∧ ((truncated = false → window.mapM element = .ok shown) ↔
      n < settings.maxElements ∨ window.length ≤ settings.maxElements) := by
  have hle := settings.le
  have hmax := optionalBoundedInt_le hn
  obtain ⟨m, hm, h⟩ := bind_ok h
  obtain rfl : n = m := Except.ok.inj (hn.symm.trans hm)
  obtain ⟨elements, hcapture, _, hsnapshot, h⟩ := bind_ok₂ h
  cases h
  unfold snapshot at hsnapshot
  split at hsnapshot <;> cases hsnapshot
  rw [driverCapture, hanswer, probeBudget] at hcapture
  have hlength := length_of_mapM hcapture
  rw [List.length_take] at hlength
  refine ⟨(List.length_take_le _ _).trans hmax, ?_, ?_⟩
  · -- at the configured number the driver never sends the extra element
    intro hwhole
    by_contra hlong
    have hcut : decide (elements.length > (elements.take n).length) = false := by
      rw [List.length_take]
      exact decide_eq_false (by omega)
    have hall := length_of_mapM (hwhole hcut)
    rw [List.length_take] at hall
    omega
  · intro hfits hcut
    have hcut := of_decide_eq_false hcut
    rw [List.length_take] at hcut
    rw [List.take_of_length_le (by omega)] at hcapture
    rw [hcapture, List.take_of_length_le (by omega)]

end

/-- A driver process that answers as is assumed. -/
def sampleAnswer (maxElements : Nat) (window : List Int) : List Int := window.take maxElements

/-- A window within the limit is reported as it is. -/
theorem truncation_reported_pair :
    (capture Except.ok id sampleAnswer ⟨5, by decide, by decide⟩ (some [0, 1]) none).toOption =
        some ([0, 1], false) ∧
      [0, 1].mapM (Except.ok : Int → Except ComputerError Int) = .ok [0, 1] :=
  ⟨by decide, (@truncation_reported Int Int Except.ok id sampleAnswer ⟨5, by decide, by decide⟩
    [0, 1] none 5 [0, 1] false (fun _ _ => rfl) rfl rfl).2.2 (.inr (by decide)) rfl⟩

/-- A window of two elements, with one configured. -/
theorem truncation_hidden : AnswersFirst sampleAnswer ∧
    (capture Except.ok id sampleAnswer ⟨1, by decide, by decide⟩ (some [0, 1]) none).toOption =
      some ([0], false) := ⟨fun _ _ => rfl, by decide⟩

end Friday.Computer

-- SUMMARY: The steps of a program on its files, the files after a crash, and the replacement of a file.
import Mathlib.Logic.Function.Basic

/-!
# Steps on files

A program changes its files step by step, and a crash leaves what the steps taken so far have
made of them. A file is replaced in three steps: the new content is written under another name,
the old file removed, and the new one renamed. Between the last two there is no file.
-/

namespace FileSteps

variable {P C : Type} [DecidableEq P]

abbrev Files (P C : Type) := P → Option C

inductive Step (P C : Type)
  | write (path : P) (content : C)
  | remove (path : P)
  | rename (src dst : P)
  deriving DecidableEq

/-- A file that is not there is neither removed nor renamed. -/
def Step.apply (files : Files P C) : Step P C → Files P C
  | .write path content => Function.update files path (some content)
  | .remove path => Function.update files path none
  | .rename src dst =>
      match files src with
      | none => files
      | some content => Function.update (Function.update files src none) dst (some content)

def Step.paths : Step P C → List P
  | .write path _ => [path]
  | .remove path => [path]
  | .rename src dst => [src, dst]

def run (files : Files P C) (steps : List (Step P C)) : Files P C := steps.foldl Step.apply files

variable {files : Files P C} {steps steps₁ steps₂ : List (Step P C)} {path tmp other : P}
  {content : C}

@[simp] theorem run_nil : run files ([] : List (Step P C)) = files := rfl

@[simp] theorem run_cons {step : Step P C} :
    run files (step :: steps) = run (step.apply files) steps := rfl

theorem run_append : run files (steps₁ ++ steps₂) = run (run files steps₁) steps₂ :=
  List.foldl_append

theorem Step.apply_of_notMem {step : Step P C} (h : path ∉ step.paths) :
    step.apply files path = files path := by
  cases step with
  | write written content =>
      exact Function.update_of_ne (fun heq => h (List.mem_singleton.mpr heq)) _ _
  | remove removed => exact Function.update_of_ne (fun heq => h (List.mem_singleton.mpr heq)) _ _
  | rename src dst =>
      rw [Step.paths, List.mem_cons, List.mem_singleton, not_or] at h
      cases hsrc : files src with
      | none => simp only [Step.apply, hsrc]
      | some content =>
          simp only [Step.apply, hsrc]
          rw [Function.update_of_ne h.2, Function.update_of_ne h.1]

/-- A file that no step touches stays as it is. -/
theorem run_of_untouched (h : ∀ step ∈ steps, path ∉ step.paths) :
    run files steps path = files path := by
  induction steps generalizing files with
  | nil => rfl
  | cons step steps ih =>
      rw [run_cons, ih fun other hmem => h other (List.mem_cons_of_mem _ hmem),
        Step.apply_of_notMem (h step List.mem_cons_self)]

/-- Replaces the file by way of a temporary one. -/
def replace (tmp path : P) (content : C) : List (Step P C) :=
  [.write tmp content, .remove path, .rename tmp path]

omit [DecidableEq P] in
theorem paths_replace {step : Step P C} (h : step ∈ replace tmp path content) :
    ∀ other ∈ step.paths, other = tmp ∨ other = path := by
  intro other hmem
  simp only [replace, List.mem_cons, List.not_mem_nil, or_false] at h
  rcases h with rfl | rfl | rfl
  · exact .inl (List.mem_singleton.mp hmem)
  · exact .inr (List.mem_singleton.mp hmem)
  · rw [Step.paths, List.mem_cons, List.mem_singleton] at hmem
    exact hmem

/-- The other files stay, however far the replacement gets. -/
theorem run_take_replace_of_ne {k : Nat} (htmp : other ≠ tmp) (hpath : other ≠ path) :
    run files ((replace tmp path content).take k) other = files other := by
  refine run_of_untouched fun step hstep hmem => ?_
  rcases paths_replace (List.mem_of_mem_take hstep) other hmem with heq | heq
  · exact htmp heq
  · exact hpath heq

theorem run_replace (h : tmp ≠ path) : run files (replace tmp path content) path = some content := by
  simp [replace, run, Step.apply, h]

/-- and then there is none. -/
theorem run_take_replace_two : run files ((replace tmp path content).take 2) path = none := by
  simp [replace, run, Step.apply]

/-! ## Other steps before a replacement -/

omit [DecidableEq P] in
/-- As long as the old file is not removed, only the temporary one was written. -/
theorem mem_take_of_not_removed {k : Nat} {step : Step P C}
    (h : .remove path ∉ (steps ++ replace tmp path content).take k)
    (hmem : step ∈ (steps ++ replace tmp path content).take k) :
    step ∈ steps ∨ step = .write tmp content := by
  rw [List.take_append] at h hmem
  rcases List.mem_append.mp hmem with hmem | hmem
  · exact .inl (List.mem_of_mem_take hmem)
  · rcases hj : k - steps.length with _ | _ | j
    · rw [hj] at hmem
      cases hmem
    · rw [hj] at hmem
      exact .inr (List.mem_singleton.mp hmem)
    · rw [hj] at h
      exact absurd (List.mem_append_right _ (List.mem_cons_of_mem _ List.mem_cons_self)) h

/-- Between the removal and the renaming there is no file. -/
theorem run_take_none {k : Nat} (hout : Step.remove path ∉ steps)
    (h : .remove path ∈ (steps ++ replace tmp path content).take k)
    (hrest : (steps ++ replace tmp path content).drop k ≠ []) :
    run files ((steps ++ replace tmp path content).take k) path = none := by
  rw [List.drop_append] at hrest
  rw [List.take_append] at h ⊢
  have hlater := (List.mem_append.mp h).resolve_left fun hmem => hout (List.mem_of_mem_take hmem)
  rcases hj : k - steps.length with _ | _ | _ | j
  · rw [hj] at hlater
    cases hlater
  · rw [hj] at hlater
    cases List.mem_singleton.mp hlater
  · rw [run_append]
    exact run_take_replace_two
  · have hlong : steps.length ≤ k := by omega
    rw [hj, List.drop_eq_nil_of_le hlong] at hrest
    exact absurd (by simp [replace]) hrest

end FileSteps

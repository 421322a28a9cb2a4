-- SUMMARY: Histories of a machine that serves one call at a time: the invariant rule and what earlier and later states share.
import Mathlib.Data.List.Basic

/-!
# Histories of calls

A history lists the calls with the states before and after them; `ok` is what every call
must meet in the state that it is served in. Facts about whole histories come from facts
about one call: an invariant by `Serves.invariant`, a relation between earlier and later
states by `Serves.related`.
-/

namespace CallHistory

variable {σ κ : Type}

structure Served (σ κ : Type) where
  before : σ
  call : κ
  after : σ

/-- `Serves serve ok s hist t`: from `s`, the machine can serve the calls of `hist`
    and end in `t`. -/
inductive Serves (serve : σ → κ → σ → Prop) (ok : σ → κ → Prop) (s : σ) :
    List (Served σ κ) → σ → Prop
  | nil : Serves serve ok s [] s
  | snoc {hist : List (Served σ κ)} {t u : σ} {call : κ} :
      Serves serve ok s hist t → ok t call → serve t call u →
        Serves serve ok s (hist ++ [⟨t, call, u⟩]) u

/-- No condition on the calls. -/
def Any (_ : σ) (_ : κ) : Prop := True

variable {serve : σ → κ → σ → Prop} {ok ok' : σ → κ → Prop} {s t u : σ}
  {hist hist₁ hist₂ : List (Served σ κ)}

theorem Serves.invariant {I : σ → Prop}
    (hserve : ∀ s call t, I s → ok s call → serve s call t → I t) (hs : I s)
    (h : Serves serve ok s hist t) : I t := by
  induction h with
  | nil => exact hs
  | snoc _ hok hstep ih => exact hserve _ _ _ ih hok hstep

/-- The calls meet another condition, one by one. -/
theorem Serves.restrict (h : Serves serve ok s hist t) (hok : ∀ e ∈ hist, ok' e.before e.call) :
    Serves serve ok' s hist t := by
  induction h with
  | nil => exact .nil
  | snoc _ _ hstep ih =>
      exact .snoc (ih fun e hmem => hok e (List.mem_append_left _ hmem))
        (hok _ (List.mem_append_right _ (List.mem_singleton_self _))) hstep

/-- What relates the states around every call relates the ends of a history. The
    calls are served in states that satisfy the invariant. -/
theorem Serves.related {I : σ → Prop} {R : σ → σ → Prop} (hrefl : ∀ s, I s → R s s)
    (htrans : ∀ s t u, R s t → R t u → R s u)
    (hserve : ∀ s call t, I s → ok s call → serve s call t → I t ∧ R s t) (hs : I s)
    (h : Serves serve ok s hist t) : R s t := by
  have hboth : I t ∧ R s t := by
    induction h with
    | nil => exact ⟨hs, hrefl _ hs⟩
    | snoc _ hok hstep ih =>
        have hnext := hserve _ _ _ ih.1 hok hstep
        exact ⟨hnext.1, htrans _ _ _ ih.2 hnext.2⟩
  exact hboth.2

theorem Serves.append (h₁ : Serves serve ok s hist₁ t) (h₂ : Serves serve ok t hist₂ u) :
    Serves serve ok s (hist₁ ++ hist₂) u := by
  induction h₂ with
  | nil => rwa [List.append_nil]
  | snoc _ hok hstep ih =>
      rw [← List.append_assoc]
      exact .snoc ih hok hstep

/-- A history splits at each of its calls. -/
theorem Serves.split {e : Served σ κ} (h : Serves serve ok s (hist₁ ++ e :: hist₂) t) :
    Serves serve ok s hist₁ e.before ∧ ok e.before e.call ∧ serve e.before e.call e.after ∧
      Serves serve ok e.after hist₂ t := by
  generalize hhist : hist₁ ++ e :: hist₂ = hist at h
  induction h generalizing hist₂ with
  | nil => simp at hhist
  | @snoc hist t u call hrun hok hstep ih =>
      rcases List.eq_nil_or_concat hist₂ with rfl | ⟨hist₂', last, rfl⟩
      · obtain ⟨rfl, hlast⟩ := List.append_inj' hhist rfl
        rw [List.cons.injEq] at hlast
        rw [hlast.1]
        exact ⟨hrun, hok, hstep, .nil⟩
      · rw [List.concat_eq_append, ← List.cons_append, ← List.append_assoc] at hhist
        obtain ⟨hinit, hlast⟩ := List.append_inj' hhist rfl
        rw [List.cons.injEq] at hlast
        obtain ⟨hbefore, hcall, hserve, hafter⟩ := ih hinit
        refine ⟨hbefore, hcall, hserve, ?_⟩
        rw [List.concat_eq_append, hlast.1]
        exact .snoc hafter hok hstep

/-- What relates every call to the earlier ones relates the calls pairwise. -/
theorem Serves.pairwise {R : Served σ κ → Served σ κ → Prop}
    (hrelated : ∀ hist t call u, Serves serve ok s hist t → ok t call → serve t call u →
      ∀ e ∈ hist, R e ⟨t, call, u⟩)
    (h : Serves serve ok s hist t) : hist.Pairwise R := by
  induction h with
  | nil => exact .nil
  | snoc hrun hok hstep ih =>
      refine List.pairwise_append.mpr ⟨ih, List.pairwise_singleton _ _, ?_⟩
      intro e hmem e' hlast
      rw [List.mem_singleton.mp hlast]
      exact hrelated _ _ _ _ hrun hok hstep e hmem

/-- The history of some calls of a machine that can always serve. -/
def runOf (step : σ → κ → σ) : σ → List κ → List (Served σ κ) × σ
  | s, [] => ([], s)
  | s, call :: calls =>
      let later := runOf step (step s call) calls
      (⟨s, call, step s call⟩ :: later.1, later.2)

theorem serves_runOf {step : σ → κ → σ} (hstep : ∀ s call, serve s call (step s call))
    (calls : List κ) (s : σ) (hok : ∀ e ∈ (runOf step s calls).1, ok e.before e.call) :
    Serves serve ok s (runOf step s calls).1 (runOf step s calls).2 := by
  induction calls generalizing s with
  | nil => exact .nil
  | cons call calls ih =>
      have hfirst : Serves serve ok s [⟨s, call, step s call⟩] (step s call) :=
        .snoc .nil (hok _ List.mem_cons_self) (hstep s call)
      exact hfirst.append (ih (step s call) fun e hmem => hok e (List.mem_cons_of_mem _ hmem))

/-- The history of some calls, as long as they can be made. -/
def runWhile (step : σ → κ → Option σ) : σ → List κ → List (Served σ κ) × σ
  | s, [] => ([], s)
  | s, call :: calls =>
      match step s call with
      | none => ([], s)
      | some t =>
          let later := runWhile step t calls
          (⟨s, call, t⟩ :: later.1, later.2)

theorem serves_runWhile {step : σ → κ → Option σ}
    (hstep : ∀ s call t, step s call = some t → serve s call t) (calls : List κ) (s : σ)
    (hok : ∀ e ∈ (runWhile step s calls).1, ok e.before e.call) :
    Serves serve ok s (runWhile step s calls).1 (runWhile step s calls).2 := by
  induction calls generalizing s with
  | nil => exact .nil
  | cons call calls ih =>
      rw [runWhile] at hok ⊢
      split
      · exact .nil
      · rename_i t ht
        rw [ht] at hok
        have hfirst : Serves serve ok s [⟨s, call, t⟩] t :=
          .snoc .nil (hok _ List.mem_cons_self) (hstep s call t ht)
        exact hfirst.append (ih t fun e hmem => hok e (List.mem_cons_of_mem _ hmem))

end CallHistory

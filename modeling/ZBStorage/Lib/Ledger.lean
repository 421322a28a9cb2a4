-- SUMMARY: Programs that balance: accounts of operations, of running threads and of whole traces.
import Mathlib.Algebra.BigOperators.Group.Finset.Basic
import Mathlib.Algebra.BigOperators.Group.Finset.Piecewise
import Mathlib.Algebra.Group.Int.Defs
import Mathlib.Algebra.Group.Pi.Basic
import Mathlib.Data.List.Count
import Mathlib.Tactic.Abel
import ZBStorage.Lib.Interleaving
import ZBStorage.Lib.WeakestPrecondition

namespace Prog

variable {ι Op : Type} {Res : Op → Type} {α β σ G : Type} [AddCommGroup G]

/-- The amount moves as the operations say, for the answers that are expected. -/
def Adds (good : (o : Op) → Res o → Prop) (amount : (o : Op) → Res o → G) (o : Op) (before : G)
    (r : Res o) (after : G) : Prop :=
  good o r ∧ after = before + amount o r

variable {good : (o : Op) → Res o → Prop} {amount : (o : Op) → Res o → G}

/-- From the account `start`, the program ends as `Q` says. -/
def Ledger (good : (o : Op) → Res o → Prop) (amount : (o : Op) → Res o → G) (p : Prog Op Res α)
    (Q : α → G → Prop) (start : G) : Prop :=
  Wp NoGuard (Adds good amount) p Q start

variable {Q : α → G → Prop} {start : G}

theorem ledger_ret {a : α} :
    Ledger good amount (.ret a : Prog Op Res α) Q start ↔ Q a start := Iff.rfl

theorem ledger_call {o : Op} {k : Res o → Prog Op Res α} :
    Ledger good amount (.call o k) Q start ↔
      ∀ r, good o r → Ledger good amount (k r) Q (start + amount o r) := by
  constructor
  · intro h r hr
    exact h.2 r _ ⟨hr, rfl⟩
  · rintro h
    refine ⟨trivial, ?_⟩
    rintro r _ ⟨hr, rfl⟩
    exact h r hr

theorem Ledger.bind {p : Prog Op Res β} {f : β → Prog Op Res α} {R : β → G → Prop}
    (hp : Ledger good amount p R start) (hf : ∀ b n, R b n → Ledger good amount (f b) Q n) :
    Ledger good amount (p >>= f) Q start := Wp.bind hp hf

theorem Ledger.mono {Q' : α → G → Prop} {p : Prog Op Res α} (h : Ledger good amount p Q start)
    (hQ : ∀ a n, Q a n → Q' a n) : Ledger good amount p Q' start := Wp.mono h hQ

/-- What a history adds. -/
def added (amount : (o : Op) → Res o → G) (h : History Op Res) : G :=
  (h.map fun x => amount x.1 x.2).sum

/-- What a trace adds. -/
def total (amount : (o : Op) → Res o → G) (t : List (Event ι Op Res)) : G :=
  (t.map fun e => amount e.op e.res).sum

variable [DecidableEq ι]

/-- A trace adds what its threads add. -/
theorem total_eq_sum {t : List (Event ι Op Res)} {threads : Finset ι}
    (h : ∀ e ∈ t, e.tid ∈ threads) :
    total amount t = ∑ i ∈ threads, added amount (own i t) := by
  induction t with
  | nil => simp [total, added]
  | cons e t ih =>
      have hrest := ih fun e' hmem => h e' (List.mem_cons_of_mem _ hmem)
      have hown (i : ι) : added amount (own i (e :: t)) =
          (if e.tid = i then amount e.op e.res else 0) + added amount (own i t) := by
        by_cases hi : e.tid = i
        · simp [own, added, hi]
        · simp [own, added, hi]
      simp only [hown, Finset.sum_add_distrib, Finset.sum_ite_eq]
      rw [if_pos (h e List.mem_cons_self), ← hrest]
      simp [total]

variable {M : Machine ι Op Res σ} {s₀ : σ} {pool₀ pool : ι → Prog Op Res α}
  {w : World ι Op Res σ}

/-- A thread has not begun, or it has returned. -/
def Quiet (w : World ι Op Res σ) (pool : ι → Prog Op Res α) : Prop :=
  ∀ i, own i w.trace = [] ∨ ∃ a, pool i = .ret a

/-- The account of a thread is what it has added so far. -/
theorem Steps.ledger {Q : ι → α → G → Prop}
    (hgood : ∀ w i o r, M.may w i o r → good o r)
    (hpool : ∀ i, Ledger good amount (pool₀ i) (Q i) 0) (h : Steps M s₀ pool₀ w pool) (i : ι) :
    Ledger good amount (pool i) (Q i) (added amount (own i w.trace)) := by
  induction h with
  | start => exact hpool i
  | @step w pool j o k r s _ hcall hsem hmay ih =>
      by_cases hij : i = j
      · subst hij
        rw [hcall] at ih
        have hnext := ledger_call.mp ih r (hgood w i o r hmay)
        rw [Function.update_self, World.push_trace, own_snoc_self]
        rw [added, List.map_append, List.sum_append]
        simpa [added] using hnext
      · rw [Function.update_of_ne hij, World.push_trace, own_snoc_of_ne (Ne.symm hij)]
        exact ih

/-- When no thread is under way, programs that balance have left a balanced trace. -/
theorem Steps.total_eq_zero (hgood : ∀ w i o r, M.may w i o r → good o r)
    (hpool : ∀ i, Ledger good amount (pool₀ i) (fun _ n => n = 0) 0)
    (h : Steps M s₀ pool₀ w pool) (hquiet : Quiet w pool) : total amount w.trace = 0 := by
  rw [@total_eq_sum _ _ _ _ _ amount _ w.trace (w.trace.map (·.tid)).toFinset
    fun e hmem => List.mem_toFinset.mpr (List.mem_map_of_mem hmem)]
  refine Finset.sum_eq_zero fun i _ => ?_
  rcases hquiet i with hown | ⟨a, hret⟩
  · rw [hown]
    rfl
  · have hledger := h.ledger hgood hpool i
    rw [hret] at hledger
    exact hledger

/-! ## Things that are taken and given back -/

section Tally

variable {κ : Type} [DecidableEq κ] {l l₁ l₂ : List κ}

/-- How often each thing is in a list. -/
def tally (l : List κ) : κ → ℤ := fun x => l.count x

@[simp] theorem tally_nil : tally ([] : List κ) = 0 := by
  funext x
  simp [tally]

@[simp] theorem tally_append : tally (l₁ ++ l₂) = tally l₁ + tally l₂ := by
  funext x
  simp [tally]

theorem tally_cons {x : κ} : tally (x :: l) = tally [x] + tally l :=
  @tally_append _ _ [x] l

theorem perm_iff_tally_eq : l₁.Perm l₂ ↔ tally l₁ = tally l₂ := by
  rw [List.perm_iff_count, funext_iff]
  exact forall_congr' fun x => Int.ofNat_inj.symm

/-- The things that the operations of a trace list. -/
def listed (f : (o : Op) → Res o → List κ) (t : List (Event ι Op Res)) : List κ :=
  t.flatMap fun e => f e.op e.res

omit [DecidableEq ι] [DecidableEq κ] in
theorem listed_snoc {f : (o : Op) → Res o → List κ} {t : List (Event ι Op Res)} {i : ι} {o : Op}
    {r : Res o} : listed f (t ++ [⟨i, o, r⟩]) = listed f t ++ f o r := by
  simp [listed]

omit [DecidableEq ι] in
/-- What a trace adds is what its operations list on one side without the other. -/
theorem total_tally_sub {f g : (o : Op) → Res o → List κ} {t : List (Event ι Op Res)} :
    total (fun o r => tally (f o r) - tally (g o r)) t = tally (listed f t) - tally (listed g t) := by
  induction t with
  | nil => simp [total, listed]
  | cons e t ih =>
      have htotal : total (fun o r => tally (f o r) - tally (g o r)) (e :: t) =
          (tally (f e.op e.res) - tally (g e.op e.res)) +
            total (fun o r => tally (f o r) - tally (g o r)) t := by
        simp [total]
      rw [htotal, ih]
      simp only [listed, List.flatMap_cons, tally_append]
      abel

omit [DecidableEq ι] in
theorem tally_listed_append {f g : (o : Op) → Res o → List κ} {t : List (Event ι Op Res)} :
    tally (listed (fun o r => f o r ++ g o r) t) = tally (listed f t) + tally (listed g t) := by
  induction t with
  | nil => simp [listed]
  | cons e t ih =>
      simp only [listed, List.flatMap_cons, tally_append] at ih ⊢
      rw [ih]
      abel

end Tally

end Prog

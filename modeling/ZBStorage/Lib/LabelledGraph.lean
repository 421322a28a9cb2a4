-- SUMMARY: Deterministic labelled graphs: walks, arborescences, and what adding, cutting and moving an edge keeps.
import Mathlib.Data.List.Induction
import Mathlib.Logic.Relation

/-!
# Labelled graphs

A graph is a partial function from a node and a label to a node. An arborescence
is a graph in which every node is entered by at most one edge and the root by
none; a node of it is reached from the root by at most one walk.
-/

namespace LabelledGraph

variable {N L : Type}

/-- Follow the labels from a node. -/
def walk (E : N → L → Option N) : N → List L → Option N
  | a, [] => some a
  | a, l :: ls => (E a l).bind fun b => walk E b ls

def Edge (E : N → L → Option N) (a b : N) : Prop := ∃ l, E a l = some b

def Reach (E : N → L → Option N) : N → N → Prop := Relation.ReflTransGen (Edge E)

variable {E E' : N → L → Option N}

@[simp] theorem walk_nil (a : N) : walk E a [] = some a := rfl

theorem walk_cons (a : N) (l : L) (ls : List L) :
    walk E a (l :: ls) = (E a l).bind fun b => walk E b ls := rfl

theorem walk_append (a : N) (ks ls : List L) :
    walk E a (ks ++ ls) = (walk E a ks).bind fun b => walk E b ls := by
  induction ks generalizing a with
  | nil => rfl
  | cons k ks ih =>
      rw [List.cons_append, walk_cons, walk_cons, Option.bind_assoc]
      simp only [ih]

theorem walk_concat_eq_some {a c : N} {ks : List L} {l : L} :
    walk E a (ks ++ [l]) = some c ↔ ∃ b, walk E a ks = some b ∧ E b l = some c := by
  rw [walk_append, Option.bind_eq_some_iff]
  constructor
  · rintro ⟨b, hb, hl⟩
    rw [walk_cons, Option.bind_eq_some_iff] at hl
    obtain ⟨c', hc, hnil⟩ := hl
    cases hnil
    exact ⟨b, hb, hc⟩
  · rintro ⟨b, hb, hc⟩
    exact ⟨b, hb, by rw [walk_cons, hc]; rfl⟩

/-- Every node is entered by at most one edge, the root by none. -/
structure Arborescence (E : N → L → Option N) (root : N) : Prop where
  in_unique : ∀ {a b c : N} {k l : L}, E a k = some c → E b l = some c → a = b ∧ k = l
  root_in : ∀ (a : N) (l : L), E a l ≠ some root

theorem Arborescence.walk_unique {root a : N} (h : Arborescence E root) {ks ls : List L}
    (hks : walk E root ks = some a) (hls : walk E root ls = some a) : ks = ls := by
  -- compare the walks from their ends
  induction ks using List.reverseRecOn generalizing ls a with
  | nil =>
      cases hks
      rcases List.eq_nil_or_concat ls with rfl | ⟨ls', l, rfl⟩
      · rfl
      · rw [List.concat_eq_append] at hls
        obtain ⟨b, _, hb⟩ := walk_concat_eq_some.mp hls
        exact absurd hb (h.root_in b l)
  | append_singleton ks k ih =>
      obtain ⟨b, hb, hba⟩ := walk_concat_eq_some.mp hks
      rcases List.eq_nil_or_concat ls with rfl | ⟨ls', l, rfl⟩
      · cases hls
        exact absurd hba (h.root_in b k)
      · rw [List.concat_eq_append] at hls ⊢
        obtain ⟨c, hc, hca⟩ := walk_concat_eq_some.mp hls
        obtain ⟨rfl, rfl⟩ := h.in_unique hba hca
        rw [ih hb hc]

theorem exists_walk_of_reach {a b : N} (h : Reach E a b) : ∃ ls, walk E a ls = some b := by
  induction h with
  | refl => exact ⟨[], rfl⟩
  | @tail b c _ hbc ih =>
      obtain ⟨ls, hls⟩ := ih
      obtain ⟨l, hl⟩ := hbc
      exact ⟨ls ++ [l], walk_concat_eq_some.mpr ⟨b, hls, hl⟩⟩

/-- A cycle would give its nodes a second walk from the root. -/
theorem Arborescence.acyclic {root a : N} (h : Arborescence E root) (hr : Reach E root a) :
    ¬ Relation.TransGen (Edge E) a a := by
  intro hcycle
  obtain ⟨ks, hks⟩ := exists_walk_of_reach hr
  obtain ⟨b, hab, l, hl⟩ := Relation.TransGen.tail'_iff.mp hcycle
  obtain ⟨ls, hls⟩ := exists_walk_of_reach hab
  have hround : walk E root (ks ++ (ls ++ [l])) = some a := by
    rw [walk_append, hks, Option.bind_some, walk_concat_eq_some]
    exact ⟨b, hls, hl⟩
  have hlen := congrArg List.length (h.walk_unique hks hround)
  simp at hlen

/-! ## Changing edges -/

theorem Reach.mono {a b : N} (h : ∀ {a l b}, E a l = some b → E' a l = some b) (hr : Reach E a b) :
    Reach E' a b :=
  Relation.ReflTransGen.mono (fun _ _ ⟨l, hl⟩ => ⟨l, h hl⟩) _ _ hr

/-- A walk that does not take the edge labelled `n` out of `p` is still there
    when only that edge is gone. -/
theorem walk_reach_of_avoids {root p a : N} {n : L}
    (h : ∀ {a l b}, ¬ (a = p ∧ l = n) → E a l = some b → E' a l = some b) {ls : List L}
    (hwalk : walk E root ls = some a)
    (havoid : ∀ ks, ks ++ [n] <+: ls → walk E root ks ≠ some p) : Reach E' root a := by
  induction ls using List.reverseRecOn generalizing a with
  | nil =>
      cases hwalk
      exact .refl
  | append_singleton ls l ih =>
      obtain ⟨b, hb, hba⟩ := walk_concat_eq_some.mp hwalk
      have hreach := ih hb fun ks hks => havoid ks (hks.trans (List.prefix_append ls [l]))
      refine hreach.tail ⟨l, h ?_ hba⟩
      rintro ⟨rfl, rfl⟩
      exact havoid ls List.prefix_rfl hb

/-- Moving the edge into `x` keeps everything reachable that was, provided its
    new source is still reachable. -/
theorem Reach.of_move {root p q x a : N} {n m : L}
    (h : ∀ {a l b}, ¬ (a = p ∧ l = n) → E a l = some b → E' a l = some b)
    (hold : E p n = some x) (hnew : E' q m = some x) (hq : Reach E' root q)
    (hr : Reach E root a) : Reach E' root a := by
  induction hr with
  | refl => exact .refl
  | @tail b c _ hbc ih =>
      obtain ⟨l, hl⟩ := hbc
      by_cases hcut : b = p ∧ l = n
      · obtain ⟨rfl, rfl⟩ := hcut
        obtain rfl : x = c := Option.some.inj (hold.symm.trans hl)
        exact hq.tail ⟨m, hnew⟩
      · exact ih.tail ⟨l, h hcut hl⟩

/-- Cutting the edge into a node without edges of its own makes only that node
    unreachable. -/
theorem Reach.of_cut {root p x a : N} {n : L}
    (h : ∀ {a l b}, ¬ (a = p ∧ l = n) → E a l = some b → E' a l = some b)
    (hold : E p n = some x) (hleaf : ∀ l, E x l = none) (hr : Reach E root a) (hne : a ≠ x) :
    Reach E' root a := by
  induction hr with
  | refl => exact .refl
  | @tail b c _ hbc ih =>
      obtain ⟨l, hl⟩ := hbc
      have hb : b ≠ x := by
        rintro rfl
        rw [hleaf] at hl
        cases hl
      refine (ih hb).tail ⟨l, h ?_ hl⟩
      rintro ⟨rfl, rfl⟩
      exact hne (Option.some.inj (hl.symm.trans hold))

end LabelledGraph

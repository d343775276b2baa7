import Mathlib.Data.List.Count
import Mathlib.Data.Set.Insert
import Mathlib.Order.Basic

/-!
# A place for each one that waits

Some wait, each with a key, and others hold places that they keep, each with a key of its own.
When no more wait below the key of one who stays than there are other places, free or about to
be, nobody waits for a place that one with a greater key keeps.
-/
namespace Cobertura

variable {α : Type*} [LinearOrder α] {xs ys : List α} {n m : ℕ} {quedan quedan' : Set α} {e t u : α}

/-- How many wait with a smaller key. -/
def menores (xs : List α) (t : α) : ℕ := xs.countP (· < t)

/-- The places suffice for those who wait below one who stays. -/
def Cubierta (xs : List α) (n : ℕ) (quedan : Set α) : Prop := ∀ t ∈ quedan, menores xs t ≤ n

theorem menores_le_menores (h : t ≤ u) : menores xs t ≤ menores xs u := by
  refine List.countP_mono_left fun x _ hx => ?_
  exact decide_eq_true ((of_decide_eq_true hx).trans_le h)

theorem menores_cons : menores (e :: xs) t = menores xs t + if e < t then 1 else 0 := by
  rw [menores, List.countP_cons]
  simp [menores]

theorem menores_eq_cero : menores xs t = 0 ↔ ∀ x ∈ xs, t ≤ x := by
  rw [menores, List.countP_eq_zero]
  simp only [decide_eq_true_eq, not_lt]

theorem menores_perm (h : xs.Perm ys) : menores xs t = menores ys t := h.countP_eq _

theorem menores_sublist (h : xs.Sublist ys) : menores xs t ≤ menores ys t := h.countP_le

section Llaves

variable {β : Type*} {f g : β → Option α} {l l' : List β} {p : β}

/-- Those who wait are the ones that have a key. -/
theorem menores_filterMap (h : ∀ q ∈ l, ∀ x, f q = some x → g q = some x) (t : α) :
    menores (l.filterMap f) t ≤ menores (l.filterMap g) t := by
  induction l with
  | nil => exact le_rfl
  | cons q l ih =>
    have hresto := ih fun q' hq' => h q' (List.mem_cons_of_mem q hq')
    cases hf : f q with
    | none =>
      rw [List.filterMap_cons_none hf]
      exact hresto.trans (menores_sublist ((List.sublist_cons_self q l).filterMap g))
    | some x =>
      rw [List.filterMap_cons_some hf, List.filterMap_cons_some (h q List.mem_cons_self x hf),
        menores_cons, menores_cons]
      exact Nat.add_le_add_right hresto _

/-- One of them, with the key `e`, has come to wait. -/
theorem menores_filterMap_uno (hl : l.Perm (p :: l')) (hp : ∀ x, f p = some x → x = e)
    (h : ∀ q ∈ l', ∀ x, f q = some x → g q = some x) (t : α) :
    menores (l.filterMap f) t ≤ menores (e :: l'.filterMap g) t := by
  rw [menores_perm (hl.filterMap f), menores_cons]
  have hresto := menores_filterMap h t
  cases hf : f p with
  | none =>
    rw [List.filterMap_cons_none hf]
    exact hresto.trans (Nat.le_add_right _ _)
  | some x =>
    rw [List.filterMap_cons_some hf, hp x hf, menores_cons]
    exact Nat.add_le_add_right hresto _

end Llaves

/-- Fewer wait, there are more places, or those who stay have smaller keys. -/
theorem Cubierta.mono (h : Cubierta xs n quedan) (hxs : ∀ t, menores ys t ≤ menores xs t)
    (hn : n ≤ m) (hquedan : ∀ t ∈ quedan', ∃ u ∈ quedan, t ≤ u) : Cubierta ys m quedan' := by
  intro t ht
  obtain ⟨u, hu, htu⟩ := hquedan t ht
  calc menores ys t ≤ menores xs t := hxs t
    _ ≤ menores xs u := menores_le_menores htu
    _ ≤ n := h u hu
    _ ≤ m := hn

/-- One more waits, and a place is left for it or nobody stays with a greater key. -/
theorem Cubierta.llega (h : Cubierta xs n quedan)
    (hcabe : ∀ t ∈ quedan, e < t → menores xs t < n) : Cubierta (e :: xs) n quedan := by
  intro t ht
  rw [menores_cons]
  split
  · next hlt => exact hcabe t ht hlt
  · exact h t ht

/-- One more waits, and somebody gives its place up. -/
theorem Cubierta.llega_con_lugar (h : Cubierta xs n quedan) :
    Cubierta (e :: xs) (n + 1) quedan := by
  intro t ht
  have hantes := h t ht
  rw [menores_cons]
  split <;> omega

/-- The least of those who wait takes a place and stays. -/
theorem Cubierta.toma (h : Cubierta (e :: xs) (n + 1) quedan) (hmenor : ∀ x ∈ xs, e ≤ x) :
    Cubierta xs n (insert e quedan) := by
  intro t ht
  rcases Set.mem_insert_iff.mp ht with rfl | ht
  · rw [menores_eq_cero.mpr hmenor]
    exact Nat.zero_le n
  · have hantes := h t ht
    rw [menores_cons] at hantes
    split at hantes
    · omega
    · next hle =>
        have hcero : menores xs t = 0 :=
          menores_eq_cero.mpr fun x hx => (not_lt.mp hle).trans (hmenor x hx)
        omega

/-- One that was not waiting yet takes a place, of which there were more than enough, before all
of those who wait. -/
theorem Cubierta.toma_antes (hcabe : ∀ t ∈ quedan, e < t → menores xs t < n + 1)
    (hmenor : ∀ x ∈ xs, e ≤ x) : Cubierta xs n (insert e quedan) := by
  intro t ht
  rcases Set.mem_insert_iff.mp ht with rfl | ht
  · rw [menores_eq_cero.mpr hmenor]
    exact Nat.zero_le n
  · by_cases hlt : e < t
    · exact Nat.le_of_lt_succ (hcabe t ht hlt)
    · rw [menores_eq_cero.mpr fun x hx => (not_lt.mp hlt).trans (hmenor x hx)]
      exact Nat.zero_le n

/-- Without a place, all that wait have keys as great as those of all who stay. -/
theorem cubierta_cero : Cubierta xs 0 quedan ↔ ∀ x ∈ xs, ∀ t ∈ quedan, t ≤ x := by
  constructor
  · intro h x hx t ht
    exact menores_eq_cero.mp (Nat.le_zero.mp (h t ht)) x hx
  · intro h t ht
    exact (menores_eq_cero.mpr fun x hx => h x hx t ht).le

end Cobertura

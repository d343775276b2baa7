import Mathlib.Algebra.Order.Ring.Int

/-!
# Histories of states

A thing is in one state at each instant of an integer clock. Its history is the list of the
changes that were asked for, in the order of the clock; a change to the state it is in is none.
The time spent in some states is the number of instants in them.
-/
namespace HistoriaEstados

variable {α : Type*} {S : α → Bool} {a b : α} {h : List (ℤ × α)} {t u desde hasta : ℤ}

/-- The state at an instant, from the state `a` and the changes asked for after it. -/
def estadoEn : α → List (ℤ × α) → ℤ → α
  | a, [], _ => a
  | a, (u, b) :: h, t => if u ≤ t then estadoEn b h t else a

/-- The instants from one up to another. -/
def instantes (desde hasta : ℤ) : List ℤ :=
  (List.range (hasta - desde).toNat).map fun (i : ℕ) => desde + i

/-- How many of them are spent in the states of `S`. -/
def tiempoEn (S : α → Bool) (a : α) (h : List (ℤ × α)) (desde hasta : ℤ) : ℕ :=
  (instantes desde hasta).countP fun t => S (estadoEn a h t)

/-- The states entered, in order. -/
def entradas [DecidableEq α] : α → List (ℤ × α) → List α
  | _, [] => []
  | a, (_, b) :: h => if a = b then entradas a h else b :: entradas b h

/-- When the last change to another state was asked for. -/
def ultimoCambio [DecidableEq α] : α → List (ℤ × α) → ℤ → ℤ
  | _, [], desde => desde
  | a, (u, b) :: h, desde => if a = b then ultimoCambio a h desde else ultimoCambio b h u

/-- The clock does not go back. -/
def Ordenada (desde : ℤ) (h : List (ℤ × α)) : Prop := (desde :: h.map Prod.fst).Pairwise (· ≤ ·)

instance (desde : ℤ) (h : List (ℤ × α)) : Decidable (Ordenada desde h) :=
  inferInstanceAs (Decidable (List.Pairwise _ _))

theorem ordenada_cons : Ordenada desde ((u, b) :: h) ↔ desde ≤ u ∧ Ordenada u h := by
  rw [Ordenada, Ordenada, List.map_cons, List.pairwise_cons, List.forall_mem_cons]
  constructor
  · rintro ⟨⟨hu, -⟩, hresto⟩
    exact ⟨hu, hresto⟩
  · rintro ⟨hu, hresto⟩
    exact ⟨⟨hu, fun v hv => hu.trans (List.rel_of_pairwise_cons hresto hv)⟩, hresto⟩

theorem ordenada_de_le (hle : t ≤ u) (h' : Ordenada u h) : Ordenada t h := by
  rw [Ordenada, List.pairwise_cons] at h' ⊢
  exact ⟨fun v hv => hle.trans (h'.1 v hv), h'.2⟩

/-- Before the first change the state is the first one. -/
theorem estadoEn_antes (h' : Ordenada u h) (ht : t < u) : estadoEn a h t = a := by
  cases h with
  | nil => rfl
  | cons x h =>
    obtain ⟨hx, -⟩ := ordenada_cons.mp h'
    rw [estadoEn, if_neg (not_le.mpr (ht.trans_le hx))]

/-- To ask for the state it is in changes nothing. -/
theorem estadoEn_mismo (h' : Ordenada u h) : estadoEn a ((u, a) :: h) t = estadoEn a h t := by
  rw [estadoEn]
  split
  · rfl
  · next ht => exact (estadoEn_antes h' (not_le.mp ht)).symm

theorem mem_instantes (h : t ∈ instantes desde hasta) : desde ≤ t ∧ t < hasta := by
  obtain ⟨i, hi, rfl⟩ := List.mem_map.mp h
  have hlt := List.mem_range.mp hi
  omega

theorem length_instantes (h : desde ≤ hasta) : ((instantes desde hasta).length : ℤ) =
    hasta - desde := by
  rw [instantes, List.length_map, List.length_range, Int.toNat_of_nonneg (sub_nonneg.mpr h)]

theorem instantes_append (hdesde : desde ≤ u) (hhasta : u ≤ hasta) :
    instantes desde hasta = instantes desde u ++ instantes u hasta := by
  have hlargo : (hasta - desde).toNat = (u - desde).toNat + (hasta - u).toNat := by omega
  rw [instantes, hlargo, List.range_add, List.map_append, List.map_map]
  congr 1
  apply List.map_congr_left
  intro i _
  rw [Function.comp_apply, Nat.cast_add, Int.toNat_of_nonneg (sub_nonneg.mpr hdesde)]
  omega

theorem tiempoEn_mismo (h' : Ordenada u h) :
    tiempoEn S a ((u, a) :: h) desde hasta = tiempoEn S a h desde hasta := by
  rw [tiempoEn, tiempoEn]
  apply List.countP_congr
  intro t _
  rw [estadoEn_mismo h']

theorem tiempoEn_vacio : tiempoEn S a h desde desde = 0 := by
  rw [tiempoEn, instantes, sub_self]
  rfl

/-- Up to the first change the time is spent in the first state, and then in the others. -/
theorem tiempoEn_cambio (hdesde : desde ≤ u) (hhasta : u ≤ hasta) :
    (tiempoEn S a ((u, b) :: h) desde hasta : ℤ) =
      (if S a = true then u - desde else 0) + tiempoEn S b h u hasta := by
  have hantes : (instantes desde u).countP (fun t => S (estadoEn a ((u, b) :: h) t)) =
      if S a = true then (instantes desde u).length else 0 := by
    have hestado : ∀ t ∈ instantes desde u, estadoEn a ((u, b) :: h) t = a := by
      intro t ht
      rw [estadoEn, if_neg (not_le.mpr (mem_instantes ht).2)]
    split
    · next hS =>
      rw [List.countP_eq_length]
      intro t ht
      rw [hestado t ht, hS]
    · next hS =>
      rw [List.countP_eq_zero]
      intro t ht
      rw [hestado t ht]
      exact hS
  have hdespues : (instantes u hasta).countP (fun t => S (estadoEn a ((u, b) :: h) t)) =
      tiempoEn S b h u hasta := by
    apply List.countP_congr
    intro t ht
    rw [estadoEn, if_pos (mem_instantes ht).1]
  rw [tiempoEn, instantes_append hdesde hhasta, List.countP_append, hantes, hdespues, Nat.cast_add]
  congr 1
  split
  · exact length_instantes hdesde
  · rfl

end HistoriaEstados

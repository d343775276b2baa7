import Mathlib.Data.List.Basic
import Mathlib.Tactic.Ring

/-!
# Ranges of a flat store

A store is a list of cells. `leerRango` and `escribirRango` are the two directions of a
block copy; a write is a real overlay only when its range lies inside the store.
-/
namespace RangosBytes

variable {α : Type*}

def leerRango (xs : List α) (i n : ℕ) : List α := (xs.drop i).take n

def escribirRango (xs : List α) (i : ℕ) (ys : List α) : List α :=
  xs.take i ++ ys ++ xs.drop (i + ys.length)

@[simp] theorem length_leerRango (xs : List α) (i n : ℕ) :
    (leerRango xs i n).length = min n (xs.length - i) := by
  simp [leerRango]

theorem length_leerRango_of_le {xs : List α} {i n : ℕ} (h : i + n ≤ xs.length) :
    (leerRango xs i n).length = n := by
  simp
  omega

theorem length_escribirRango {xs ys : List α} {i : ℕ} (h : i + ys.length ≤ xs.length) :
    (escribirRango xs i ys).length = xs.length := by
  simp [escribirRango]
  omega

theorem getElem?_leerRango (xs : List α) (i n k : ℕ) :
    (leerRango xs i n)[k]? = if k < n then xs[i + k]? else none := by
  simp [leerRango, List.getElem?_take]

theorem getElem?_escribirRango {xs : List α} {i : ℕ} (ys : List α) (h : i ≤ xs.length) (k : ℕ) :
    (escribirRango xs i ys)[k]? =
      if i ≤ k ∧ k < i + ys.length then ys[k - i]? else xs[k]? := by
  have hl : (xs.take i).length = i := by simp [h]
  unfold escribirRango
  by_cases h₁ : k < i
  · rw [List.append_assoc, List.getElem?_append_left (by omega)]
    simp [h₁, Nat.not_le_of_lt h₁]
  · rw [List.append_assoc, List.getElem?_append_right (by omega), hl]
    by_cases h₂ : k < i + ys.length
    · rw [List.getElem?_append_left (by omega)]
      simp [h₂, Nat.le_of_not_lt h₁]
    · rw [List.getElem?_append_right (by omega), List.getElem?_drop]
      simp only [h₂, and_false, if_false]
      congr 1
      omega

theorem leer_escribir_disjunto {xs ys : List α} {i j n : ℕ} (h : i ≤ xs.length)
    (hd : j + n ≤ i ∨ i + ys.length ≤ j) :
    leerRango (escribirRango xs i ys) j n = leerRango xs j n := by
  apply List.ext_getElem?
  intro k
  rw [getElem?_leerRango, getElem?_leerRango, getElem?_escribirRango ys h]
  by_cases hk : k < n
  · have : ¬ (i ≤ j + k ∧ j + k < i + ys.length) := by omega
    simp [hk, this]
  · simp [hk]

theorem leer_escribir_mismo {xs ys : List α} {i : ℕ} (h : i ≤ xs.length) :
    leerRango (escribirRango xs i ys) i ys.length = ys := by
  apply List.ext_getElem?
  intro k
  rw [getElem?_leerRango, getElem?_escribirRango ys h]
  by_cases hk : k < ys.length
  · simp [hk]
  · simp [hk]

/-- A write inside a window is the write of the window at the relative offset. -/
theorem leer_escribir_dentro {xs ys : List α} {i j n : ℕ} (hn : j + n ≤ xs.length) (hj : j ≤ i)
    (hi : i + ys.length ≤ j + n) :
    leerRango (escribirRango xs i ys) j n = escribirRango (leerRango xs j n) (i - j) ys := by
  have hl : (leerRango xs j n).length = n := length_leerRango_of_le hn
  apply List.ext_getElem?
  intro k
  rw [getElem?_leerRango, getElem?_escribirRango ys (by omega),
    getElem?_escribirRango ys (by omega), getElem?_leerRango]
  by_cases hk : k < n
  · by_cases hm : i ≤ j + k ∧ j + k < i + ys.length
    · have hm' : i - j ≤ k ∧ k < i - j + ys.length := by omega
      simp only [hk, hm, hm', and_self, if_true]
      congr 1
      omega
    · have hm' : ¬ (i - j ≤ k ∧ k < i - j + ys.length) := by omega
      rw [if_pos hk, if_neg hm, if_neg hm', if_pos hk]
  · have hm' : ¬ (i - j ≤ k ∧ k < i - j + ys.length) := by omega
    rw [if_neg hk, if_neg hm', if_neg hk]

/-- A window with the part of a write at `i` that falls on it laid over it. -/
def solapar (ventana : List α) (base i : ℕ) (ys : List α) : List α :=
  ventana.mapIdx fun k x => if i ≤ base + k then (ys[base + k - i]?).getD x else x

theorem leer_escribir_solapar {xs ys : List α} {i j n : ℕ} (h : i + ys.length ≤ xs.length) :
    leerRango (escribirRango xs i ys) j n = solapar (leerRango xs j n) j i ys := by
  apply List.ext_getElem?
  intro k
  rw [solapar, List.getElem?_mapIdx, getElem?_leerRango, getElem?_leerRango,
    getElem?_escribirRango ys (by omega)]
  by_cases hk : k < n
  · simp only [hk, if_true]
    by_cases hi : i ≤ j + k
    · by_cases hfin : j + k < i + ys.length
      · have hy : j + k - i < ys.length := by omega
        have hx : j + k < xs.length := by omega
        simp [hi, hfin, hy, hx]
      · have hy : ys[j + k - i]? = none := List.getElem?_eq_none (by omega)
        simp [hi, hfin, hy]
    · simp [hi]
  · simp [hk]

theorem leer_append {xs ys : List α} {i n : ℕ} (h : i + n ≤ xs.length) :
    leerRango (xs ++ ys) i n = leerRango xs i n := by
  apply List.ext_getElem?
  intro k
  rw [getElem?_leerRango, getElem?_leerRango]
  by_cases hk : k < n
  · rw [if_pos hk, if_pos hk, List.getElem?_append_left (by omega)]
  · rw [if_neg hk, if_neg hk]

theorem escribir_escribir {xs ys zs : List α} {i : ℕ} (h : i + ys.length ≤ xs.length)
    (hl : ys.length = zs.length) :
    escribirRango (escribirRango xs i ys) i zs = escribirRango xs i zs := by
  apply List.ext_getElem?
  intro k
  rw [getElem?_escribirRango zs (by rw [length_escribirRango h]; omega),
    getElem?_escribirRango ys (by omega), getElem?_escribirRango zs (by omega), hl]
  by_cases hk : i ≤ k ∧ k < i + zs.length <;> simp [hk]

/-- Distinct aligned blocks are disjoint ranges. -/
theorem bloques_disjuntos {m m' t : ℕ} (h : m ≠ m') : m * t + t ≤ m' * t ∨ m' * t + t ≤ m * t := by
  rcases Nat.lt_or_gt_of_ne h with h | h
  · left
    calc m * t + t = (m + 1) * t := by ring
      _ ≤ m' * t := Nat.mul_le_mul_right t h
  · right
    calc m' * t + t = (m' + 1) * t := by ring
      _ ≤ m * t := Nat.mul_le_mul_right t h

theorem bloque_dentro {m n t : ℕ} (h : m < n) : m * t + t ≤ n * t := by
  calc m * t + t = (m + 1) * t := by ring
    _ ≤ n * t := Nat.mul_le_mul_right t h

end RangosBytes

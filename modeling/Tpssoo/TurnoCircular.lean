import Mathlib.Data.Finset.Card
import Mathlib.Data.Int.ModEq

/-!
# Round robin

Turns around a ring of `n` positions, some of them free. Each turn goes to the first free
position after that of the turn before it, and takes it.
-/
namespace TurnoCircular

variable {n d i : ℕ} {desde : ℤ} {libres : Finset ℕ} {libre : ℕ → Bool} {is : List ℕ}

/-- The position tried after `d` others, when the last turn went to `desde`. -/
def posicion (n : ℕ) (desde : ℤ) (d : ℕ) : ℕ := ((desde + 1 + d) % n).toNat

/-- The search, once around the ring. -/
def primeraLibre (n : ℕ) (desde : ℤ) (libre : ℕ → Bool) : Option ℕ :=
  ((List.range n).map (posicion n desde)).find? libre

def EsPrimera (n : ℕ) (libres : Finset ℕ) (desde : ℤ) (i : ℕ) : Prop :=
  ∃ d < n, posicion n desde d = i ∧ i ∈ libres ∧ ∀ e < d, posicion n desde e ∉ libres

/-- Successive turns, each to the first position still free. -/
def Turnos (n : ℕ) : Finset ℕ → ℤ → List ℕ → Prop
  | _, _, [] => True
  | libres, desde, i :: is => EsPrimera n libres desde i ∧ Turnos n (libres.erase i) i is

theorem posicion_lt (hn : 0 < n) : posicion n desde d < n := by
  have hpos : 0 ≤ (desde + 1 + d) % (n : ℤ) := Int.emod_nonneg _ (by omega)
  have hlt : (desde + 1 + d) % (n : ℤ) < n := Int.emod_lt_of_pos _ (by omega)
  rw [posicion]
  omega

/-- The search tries every position. -/
theorem exists_posicion (desde : ℤ) (hi : i < n) : ∃ d < n, posicion n desde d = i := by
  have hn : (n : ℤ) ≠ 0 := by omega
  have hpos : 0 ≤ (i - (desde + 1)) % (n : ℤ) := Int.emod_nonneg _ hn
  have hlt : (i - (desde + 1)) % (n : ℤ) < n := Int.emod_lt_of_pos _ (by omega)
  refine ⟨((i - (desde + 1)) % (n : ℤ)).toNat, by omega, ?_⟩
  rw [posicion, Int.toNat_of_nonneg hpos, Int.add_emod_emod, add_sub_cancel,
    Int.emod_eq_of_lt (by omega) (by omega), Int.toNat_natCast]

theorem primeraLibre_some (hlibres : ∀ j, j ∈ libres ↔ j < n ∧ libre j = true)
    (h : primeraLibre n desde libre = some i) : EsPrimera n libres desde i := by
  rw [primeraLibre, List.find?_map, Option.map_eq_some_iff] at h
  obtain ⟨d, hd, rfl⟩ := h
  obtain ⟨hsi, hmem, hantes⟩ := List.find?_range_eq_some.mp hd
  have hd : d < n := List.mem_range.mp hmem
  refine ⟨d, hd, rfl, (hlibres _).mpr ⟨posicion_lt (by omega), hsi⟩, fun e he hlibre => ?_⟩
  have hno : libre (posicion n desde e) = false := by
    simpa using hantes e he
  rw [((hlibres _).mp hlibre).2] at hno
  cases hno

theorem primeraLibre_none (hlibres : ∀ j, j ∈ libres ↔ j < n ∧ libre j = true)
    (h : primeraLibre n desde libre = none) : libres = ∅ := by
  rw [primeraLibre, List.find?_eq_none] at h
  refine Finset.eq_empty_of_forall_notMem fun j hj => ?_
  obtain ⟨hlt, hlibre⟩ := (hlibres j).mp hj
  obtain ⟨d, hd, rfl⟩ := exists_posicion desde hlt
  exact h _ (List.mem_map_of_mem (List.mem_range.mpr hd)) hlibre

theorem EsPrimera.mem (h : EsPrimera n libres desde i) : i ∈ libres := by
  obtain ⟨d, -, -, hi, -⟩ := h
  exact hi

/-- Turns go to free positions, and never twice to the same. -/
theorem Turnos.mem (h : Turnos n libres desde is) : ∀ i ∈ is, i ∈ libres := by
  induction is generalizing libres desde with
  | nil => exact fun i hi => absurd hi List.not_mem_nil
  | cons j is ih =>
    intro i hi
    rcases List.mem_cons.mp hi with rfl | hi
    · exact h.1.mem
    · exact Finset.mem_of_mem_erase (ih h.2 i hi)

theorem Turnos.nodup (h : Turnos n libres desde is) : is.Nodup := by
  induction is generalizing libres desde with
  | nil => exact List.nodup_nil
  | cons j is ih =>
    refine List.nodup_cons.mpr ⟨fun hj => ?_, ih h.2⟩
    exact Finset.notMem_erase j libres (h.2.mem j hj)

end TurnoCircular

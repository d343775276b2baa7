import Mathlib.Data.Multiset.Dedup
import Mathlib.Data.Bool.Count
import Mathlib.Data.Multiset.Filter

/-!
# Bitmaps and their owners

A bitmap marks which indices of a store are taken. `Propiedad` is exact ownership by a
multiset of indices; `Cubre` is its safety half, where a marked index may have no owner.
Indices are integers, as the callers compare them with a negative sentinel.
-/
namespace MapaDeBits

def Ocupado (bits : List Bool) (i : ℤ) : Prop := 0 ≤ i ∧ bits[i.toNat]? = some true

/-- Each owner holds a marked index of its own, and every marked index has an owner. -/
def Propiedad (bits : List Bool) (duenos : Multiset ℤ) : Prop :=
  duenos.Nodup ∧ ∀ i, i ∈ duenos ↔ Ocupado bits i

/-- Each owner holds a marked index of its own. -/
def Cubre (bits : List Bool) (duenos : Multiset ℤ) : Prop :=
  duenos.Nodup ∧ ∀ i ∈ duenos, Ocupado bits i

/-- The first clear index, or the length of a full bitmap. -/
def primerLibre (bits : List Bool) : ℕ := bits.idxOf false

def ocupar (bits : List Bool) (i : ℤ) : List Bool :=
  if 0 ≤ i ∧ i < bits.length then bits.set i.toNat true else bits

def liberar (bits : List Bool) (i : ℤ) : List Bool :=
  if 0 ≤ i ∧ i < bits.length then bits.set i.toNat false else bits

instance (bits : List Bool) (i : ℤ) : Decidable (Ocupado bits i) :=
  inferInstanceAs (Decidable (_ ∧ _))

variable {bits : List Bool} {duenos : Multiset ℤ} {i j : ℤ}

@[simp] theorem length_ocupar : (ocupar bits i).length = bits.length := by
  unfold ocupar
  split <;> simp

@[simp] theorem length_liberar : (liberar bits i).length = bits.length := by
  unfold liberar
  split <;> simp

theorem ocupado_rango (h : Ocupado bits i) : 0 ≤ i ∧ i < bits.length := by
  obtain ⟨h₀, h₁⟩ := h
  have := (List.getElem?_eq_some_iff.mp h₁).1
  omega

theorem ocupado_ocupar (h : 0 ≤ i ∧ i < bits.length) :
    Ocupado (ocupar bits i) j ↔ j = i ∨ Ocupado bits j := by
  unfold Ocupado ocupar
  rw [if_pos h, List.getElem?_set]
  by_cases hj : j = i
  · subst hj
    have : j.toNat < bits.length := by omega
    simp [this, h.1]
  · by_cases h₀ : 0 ≤ j
    · have : i.toNat ≠ j.toNat := by omega
      simp [this, hj]
    · simp [h₀, hj]

theorem ocupado_liberar : Ocupado (liberar bits i) j ↔ Ocupado bits j ∧ j ≠ i := by
  by_cases h : 0 ≤ i ∧ i < bits.length
  · unfold Ocupado liberar
    rw [if_pos h, List.getElem?_set]
    by_cases hj : j = i
    · subst hj
      by_cases hl : j.toNat < bits.length <;> simp [hl]
    · by_cases h₀ : 0 ≤ j
      · have : i.toNat ≠ j.toNat := by omega
        simp [this, hj]
      · simp [h₀]
  · have hlib : liberar bits i = bits := if_neg h
    rw [hlib]
    constructor
    · intro hj
      refine ⟨hj, ?_⟩
      rintro rfl
      exact h (ocupado_rango hj)
    · exact And.left

theorem primerLibre_le (bits : List Bool) : primerLibre bits ≤ bits.length :=
  List.idxOf_le_length

theorem not_ocupado_primerLibre (bits : List Bool) : ¬ Ocupado bits (primerLibre bits) := by
  rintro ⟨-, h⟩
  simp only [Int.toNat_natCast] at h
  obtain ⟨hlt, hv⟩ := List.getElem?_eq_some_iff.mp h
  simp [primerLibre] at hv

theorem primerLibre_lt_iff : primerLibre bits < bits.length ↔ 0 < bits.count false := by
  rw [primerLibre, List.idxOf_lt_length_iff, List.count_pos_iff]

theorem propiedad_cubre (h : Propiedad bits duenos) : Cubre bits duenos :=
  ⟨h.1, fun i hi => (h.2 i).mp hi⟩

theorem propiedad_vacia (n : ℕ) : Propiedad (List.replicate n false) 0 := by
  refine ⟨Multiset.nodup_zero, fun i => ?_⟩
  simp [Ocupado, List.getElem?_replicate]

theorem propiedad_ocupar (h : Propiedad bits duenos) (hi : 0 ≤ i ∧ i < bits.length)
    (hlibre : ¬ Ocupado bits i) : Propiedad (ocupar bits i) (i ::ₘ duenos) := by
  refine ⟨Multiset.nodup_cons.mpr ⟨fun hm => hlibre ((h.2 i).mp hm), h.1⟩, fun j => ?_⟩
  rw [Multiset.mem_cons, ocupado_ocupar hi, h.2]

theorem propiedad_liberar (h : Propiedad bits (i ::ₘ duenos)) :
    Propiedad (liberar bits i) duenos := by
  obtain ⟨hn, hiff⟩ := h
  obtain ⟨hi, hd⟩ := Multiset.nodup_cons.mp hn
  refine ⟨hd, fun j => ?_⟩
  rw [ocupado_liberar, ← hiff, Multiset.mem_cons]
  constructor
  · intro hj
    exact ⟨Or.inr hj, fun he => hi (he ▸ hj)⟩
  · rintro ⟨rfl | hj, hne⟩
    · exact absurd rfl hne
    · exact hj

theorem cubre_ocupar (h : Cubre bits duenos) (hi : 0 ≤ i ∧ i < bits.length)
    (hlibre : i ∉ duenos) : Cubre (ocupar bits i) (i ::ₘ duenos) := by
  refine ⟨Multiset.nodup_cons.mpr ⟨hlibre, h.1⟩, fun j hj => ?_⟩
  rw [ocupado_ocupar hi]
  exact (Multiset.mem_cons.mp hj).imp_right (h.2 j)

theorem cubre_liberar (h : Cubre bits (i ::ₘ duenos)) : Cubre (liberar bits i) duenos := by
  obtain ⟨hn, hocu⟩ := h
  obtain ⟨hi, hd⟩ := Multiset.nodup_cons.mp hn
  refine ⟨hd, fun j hj => ocupado_liberar.mpr ⟨hocu j (Multiset.mem_cons_of_mem hj), ?_⟩⟩
  rintro rfl
  exact hi hj

theorem ocupado_append (extra : List Bool) (h : Ocupado bits i) : Ocupado (bits ++ extra) i := by
  obtain ⟨h₀, h₁⟩ := h
  exact ⟨h₀, by rw [List.getElem?_append_left (List.getElem?_eq_some_iff.mp h₁).1, h₁]⟩

theorem cubre_append (extra : List Bool) (h : Cubre bits duenos) : Cubre (bits ++ extra) duenos :=
  ⟨h.1, fun i hi => ocupado_append extra (h.2 i hi)⟩

theorem ocupado_append_iff (extra : List Bool) :
    Ocupado (bits ++ extra) i ↔ Ocupado bits i ∨ (bits.length ≤ i ∧
      Ocupado extra (i - bits.length)) := by
  unfold Ocupado
  by_cases h₀ : 0 ≤ i
  · by_cases hl : i < bits.length
    · rw [List.getElem?_append_left (by omega)]
      simp [h₀, Int.not_le.mpr hl]
    · have hn : bits[i.toNat]? = none := List.getElem?_eq_none (by omega)
      have hs : (i - bits.length).toNat = i.toNat - bits.length := by omega
      rw [List.getElem?_append_right (by omega), hn, hs]
      simp [h₀, Int.not_lt.mp hl]
  · simp [h₀]
    omega

section Conteo

/-- The marked indices in order. -/
def indices (bits : List Bool) : List ℤ :=
  ((bits.zipIdx.filter Prod.fst).map Prod.snd).map Int.ofNat

theorem mem_indices : i ∈ indices bits ↔ Ocupado bits i := by
  simp only [indices, Ocupado, List.mem_map, List.mem_filter, Prod.exists,
    List.mem_zipIdx_iff_getElem?, exists_eq_right]
  constructor
  · rintro ⟨k, hk, rfl⟩
    exact ⟨Int.natCast_nonneg k, hk⟩
  · rintro ⟨h₀, h₁⟩
    exact ⟨i.toNat, h₁, Int.toNat_of_nonneg h₀⟩

theorem nodup_indices (bits : List Bool) : (indices bits).Nodup := by
  have hsnd : ((bits.zipIdx.filter Prod.fst).map Prod.snd).Nodup := by
    refine List.Nodup.sublist (List.filter_sublist.map Prod.snd) ?_
    rw [List.zipIdx_map_snd]
    exact List.nodup_range'
  exact hsnd.map fun m n h => Int.ofNat_inj.mp h

theorem length_indices (bits : List Bool) : (indices bits).length = bits.count true := by
  unfold indices
  rw [List.length_map, List.length_map, ← List.countP_eq_length_filter, List.count]
  have h := List.countP_map (p := id) (f := Prod.fst) (l := bits.zipIdx)
  rw [List.zipIdx_map_fst] at h
  simp only [Function.comp_def, id] at h
  rw [← h]
  congr 1
  funext b
  cases b <;> rfl

theorem propiedad_iff : Propiedad bits duenos ↔ duenos = indices bits := by
  constructor
  · rintro ⟨hn, hiff⟩
    refine (Multiset.Nodup.ext hn (Multiset.coe_nodup.mpr (nodup_indices bits))).mpr fun i => ?_
    rw [hiff, Multiset.mem_coe, mem_indices]
  · rintro rfl
    exact ⟨Multiset.coe_nodup.mpr (nodup_indices bits), fun i => by
      rw [Multiset.mem_coe, mem_indices]⟩

theorem card_duenos (h : Propiedad bits duenos) : duenos.card = bits.count true := by
  rw [propiedad_iff.mp h, Multiset.coe_card, length_indices]

theorem libres_add_duenos (h : Propiedad bits duenos) :
    bits.count false + duenos.card = bits.length := by
  rw [card_duenos h, List.count_false_add_count_true]

end Conteo

end MapaDeBits

import Mathlib.Logic.Function.Basic
import Mathlib.Data.List.Basic

/-!
# Write-back caches

Lines over a backing store, each with a key, a content and a dirty bit. `Refleja` says
which store the two together stand for; the lemmas say what eviction, installation, a
write to a line and a full cleaning do to that store.
-/
namespace CacheDiferida

variable {ι α : Type*}

structure Linea (ι α : Type*) where
  clave : ι
  contenido : α
  sucia : Bool

/-- Lines `ls` over the backing store `r` stand for the store `v`. -/
structure Refleja (ls : List (Option (Linea ι α))) (r v : ι → α) : Prop where
  unicas : ∀ (i j : ℕ) (l l' : Linea ι α),
    ls[i]? = some (some l) → ls[j]? = some (some l') → l.clave = l'.clave → i = j
  lineas : ∀ (i : ℕ) (l : Linea ι α), ls[i]? = some (some l) → v l.clave = l.contenido
  limpias : ∀ k, (∀ (i : ℕ) (l : Linea ι α), ls[i]? = some (some l) → l.sucia = true →
      l.clave ≠ k) →
    v k = r k

variable {ls : List (Option (Linea ι α))} {r v : ι → α} {i : ℕ} {l : Linea ι α}

theorem refleja_vacia (h : ∀ (i : ℕ) (l : Linea ι α), ls[i]? ≠ some (some l)) : Refleja ls r r where
  unicas i _ l _ hl := absurd hl (h i l)
  lineas i l hl := absurd hl (h i l)
  limpias _ _ := rfl

theorem respaldo_de_vacia (h : Refleja ls r v)
    (hls : ∀ (i : ℕ) (l : Linea ι α), ls[i]? ≠ some (some l)) : r = v := by
  funext k
  symm
  apply h.limpias
  intro i l hl
  exact absurd hl (hls i l)

/-- A key with no line is read from the backing store. -/
theorem leer_ausente (h : Refleja ls r v) {k : ι}
    (hk : ∀ (i : ℕ) (l : Linea ι α), ls[i]? = some (some l) → l.clave ≠ k) :
    r k = v k := by
  symm
  apply h.limpias
  intro i l hl _
  exact hk i l hl

/-- Changes of the backing store away from the keys of the lines. -/
theorem refleja_respaldo {r' : ι → α} {K : ι → Prop} [DecidablePred K] (h : Refleja ls r v)
    (hls : ∀ (i : ℕ) (l : Linea ι α), ls[i]? = some (some l) → K l.clave)
    (hr : ∀ k, K k → r' k = r k) : Refleja ls r' fun k => if K k then v k else r' k where
  unicas := h.unicas
  lineas := by
    intro i l hl
    rw [if_pos (hls i l hl)]
    exact h.lineas i l hl
  limpias := by
    intro k hk
    by_cases hK : K k
    · rw [if_pos hK, hr k hK]
      exact h.limpias k hk
    · rw [if_neg hK]

theorem getElem?_set_otra {j : ℕ} {o : Option (Linea ι α)} (hij : i ≠ j) :
    (ls.set i o)[j]? = ls[j]? := List.getElem?_set_ne hij

theorem getElem?_set_misma {o o' : Option (Linea ι α)} (h : (ls.set i o)[i]? = some o') :
    o' = o := by
  rw [List.getElem?_set_self'] at h
  cases hi : ls[i]? with
  | none => simp [hi] at h
  | some x => simpa [hi] using h.symm

variable [DecidableEq ι]

/-- What the backing store gets when a line leaves. -/
def volcar (r : ι → α) : Option (Linea ι α) → ι → α
  | none => r
  | some l => if l.sucia then Function.update r l.clave l.contenido else r

theorem volcar_otra {o : Option (Linea ι α)} {k : ι} (hk : ∀ l, o = some l → l.clave ≠ k) :
    volcar r o k = r k := by
  cases o with
  | none => rfl
  | some l =>
    rw [volcar]
    split
    · exact Function.update_of_ne (hk l rfl).symm _ _
    · rfl

theorem refleja_desalojar {o : Option (Linea ι α)} (h : Refleja ls r v) (ho : ls[i]? = some o) :
    Refleja (ls.set i none) (volcar r o) v := by
  have hotra : ∀ (j : ℕ) (l : Linea ι α), (ls.set i none)[j]? = some (some l) →
      i ≠ j ∧ ls[j]? = some (some l) := by
    intro j l hj
    have hij : i ≠ j := by
      rintro rfl
      cases getElem?_set_misma hj
    exact ⟨hij, getElem?_set_otra hij ▸ hj⟩
  refine ⟨?_, ?_, ?_⟩
  · intro j k l₁ l₂ hj hk
    exact h.unicas j k l₁ l₂ (hotra j l₁ hj).2 (hotra k l₂ hk).2
  · intro j l hj
    exact h.lineas j l (hotra j l hj).2
  · intro k hk
    by_cases hclave : ∀ l, o = some l → l.clave ≠ k
    · rw [volcar_otra hclave]
      apply h.limpias
      intro j l hj hsucia
      by_cases hij : i = j
      · subst hij
        rw [ho] at hj
        exact hclave l (Option.some.inj hj)
      · exact hk j l (by rw [getElem?_set_otra hij, hj]) hsucia
    · push Not at hclave
      obtain ⟨l, rfl, rfl⟩ := hclave
      rw [volcar]
      cases hs : l.sucia with
      | true =>
        rw [if_pos rfl, Function.update_self]
        exact h.lineas i l ho
      | false =>
        rw [if_neg Bool.false_ne_true]
        apply h.limpias
        intro j l' hj hsucia heq
        -- the line of that key is the one that leaves, and it is clean
        have hij : j = i := h.unicas j i l' l hj ho heq
        subst hij
        rw [ho] at hj
        cases hj
        rw [hs] at hsucia
        cases hsucia

theorem refleja_instalar (h : Refleja ls r v) (hi : ls[i]? = some none)
    (hnueva : ∀ (j : ℕ) (l' : Linea ι α), ls[j]? = some (some l') → l'.clave ≠ l.clave)
    (hlimpia : l.sucia = false → r l.clave = l.contenido) :
    Refleja (ls.set i (some l)) r (Function.update v l.clave l.contenido) := by
  have hcaso : ∀ (j : ℕ) (l' : Linea ι α), (ls.set i (some l))[j]? = some (some l') →
      (j = i ∧ l' = l) ∨ (ls[j]? = some (some l') ∧ l'.clave ≠ l.clave) := by
    intro j l' hj
    by_cases hij : i = j
    · subst hij
      left
      exact ⟨rfl, Option.some.inj (getElem?_set_misma hj)⟩
    · right
      rw [getElem?_set_otra hij] at hj
      exact ⟨hj, hnueva j l' hj⟩
  have hpropia : (ls.set i (some l))[i]? = some (some l) := by
    rw [List.getElem?_set_self', hi]
    rfl
  refine ⟨?_, ?_, ?_⟩
  · intro j k l₁ l₂ hj hk heq
    rcases hcaso j l₁ hj with ⟨rfl, rfl⟩ | ⟨hj, hne⟩ <;>
      rcases hcaso k l₂ hk with ⟨rfl, rfl⟩ | ⟨hk, hne'⟩
    · rfl
    · exact absurd heq.symm hne'
    · exact absurd heq hne
    · exact h.unicas j k l₁ l₂ hj hk heq
  · intro j l' hj
    rcases hcaso j l' hj with ⟨-, rfl⟩ | ⟨hj, hne⟩
    · exact Function.update_self ..
    · rw [Function.update_of_ne hne]
      exact h.lineas j l' hj
  · intro k hk
    by_cases hclave : k = l.clave
    · subst hclave
      rw [Function.update_self]
      cases hs : l.sucia with
      | true => exact absurd rfl (hk i l hpropia hs)
      | false => exact (hlimpia hs).symm
    · rw [Function.update_of_ne hclave]
      apply h.limpias
      intro j l' hj hsucia
      have hij : i ≠ j := by
        rintro rfl
        rw [hi] at hj
        cases hj
      exact hk j l' (by rw [getElem?_set_otra hij, hj]) hsucia

theorem refleja_escribir (h : Refleja ls r v) (hl : ls[i]? = some (some l)) (x : α) :
    Refleja (ls.set i (some ⟨l.clave, x, true⟩)) r (Function.update v l.clave x) := by
  have hpropia : (ls.set i (some ⟨l.clave, x, true⟩))[i]? = some (some ⟨l.clave, x, true⟩) := by
    rw [List.getElem?_set_self', hl]
    rfl
  have hcaso : ∀ (j : ℕ) (l' : Linea ι α), (ls.set i (some ⟨l.clave, x, true⟩))[j]? =
      some (some l') →
      (j = i ∧ l' = ⟨l.clave, x, true⟩) ∨ (ls[j]? = some (some l') ∧ l'.clave ≠ l.clave) := by
    intro j l' hj
    by_cases hij : i = j
    · subst hij
      exact Or.inl ⟨rfl, Option.some.inj (getElem?_set_misma hj)⟩
    · rw [getElem?_set_otra hij] at hj
      right
      refine ⟨hj, ?_⟩
      intro heq
      exact hij (h.unicas j i l' l hj hl heq).symm
  refine ⟨?_, ?_, ?_⟩
  · intro j k l₁ l₂ hj hk heq
    rcases hcaso j l₁ hj with ⟨rfl, rfl⟩ | ⟨hj, hne⟩ <;>
      rcases hcaso k l₂ hk with ⟨rfl, rfl⟩ | ⟨hk, hne'⟩
    · rfl
    · exact absurd heq.symm hne'
    · exact absurd heq hne
    · exact h.unicas j k l₁ l₂ hj hk heq
  · intro j l' hj
    rcases hcaso j l' hj with ⟨-, rfl⟩ | ⟨hj, hne⟩
    · exact Function.update_self ..
    · rw [Function.update_of_ne hne]
      exact h.lineas j l' hj
  · intro k hk
    have hclave : k ≠ l.clave := by
      rintro rfl
      exact hk i _ hpropia rfl rfl
    rw [Function.update_of_ne hclave]
    apply h.limpias
    intro j l' hj hsucia
    by_cases hij : i = j
    · subst hij
      rw [hl] at hj
      cases hj
      exact Ne.symm hclave
    · exact hk j l' (by rw [getElem?_set_otra hij, hj]) hsucia

/-- Writing lines back touches their keys only. -/
theorem volcar_todas_otra {k : ι} (hk : ∀ l, some l ∈ ls → l.clave ≠ k) :
    ls.foldl volcar r k = r k := by
  induction ls generalizing r with
  | nil => rfl
  | cons o ls ih =>
    rw [List.foldl_cons, ih fun l hl => hk l (List.mem_cons_of_mem _ hl)]
    apply volcar_otra
    rintro l rfl
    exact hk l List.mem_cons_self

/-- A line that takes the place of whatever its slot held. -/
theorem refleja_reemplazar {o : Option (Linea ι α)} (h : Refleja ls r v) (ho : ls[i]? = some o)
    (hnueva : ∀ (j : ℕ) (l' : Linea ι α), ls[j]? = some (some l') → l'.clave ≠ l.clave)
    (hlimpia : l.sucia = false → r l.clave = l.contenido) :
    Refleja (ls.set i (some l)) (volcar r o) (Function.update v l.clave l.contenido) := by
  have hlt : i < ls.length := (List.getElem?_eq_some_iff.mp ho).1
  have hfuera := refleja_desalojar h ho
  rw [← List.set_set (a := none)]
  apply refleja_instalar hfuera
  · rw [List.getElem?_set_self hlt]
  · intro j l' hj
    by_cases hij : i = j
    · subst hij
      cases getElem?_set_misma hj
    · rw [getElem?_set_otra hij] at hj
      exact hnueva j l' hj
  · intro hs
    rw [volcar_otra]
    · exact hlimpia hs
    · intro l' hl'
      exact hnueva i l' (by rw [ho, hl'])

/-- Writing every line back, in order, leaves the store that the cache stood for. -/
theorem volcar_todas (h : Refleja ls r v) : ls.foldl volcar r = v := by
  induction ls generalizing r with
  | nil => exact respaldo_de_vacia h fun i l hl => by simp at hl
  | cons o ls ih =>
    have hcola : Refleja ls (volcar r o) v := by
      have hfuera : Refleja (none :: ls) (volcar r o) v := refleja_desalojar (i := 0) h rfl
      refine ⟨?_, ?_, ?_⟩
      · intro i j l l' hi hj heq
        exact Nat.succ.inj (hfuera.unicas (i + 1) (j + 1) l l' hi hj heq)
      · intro i l hi
        exact hfuera.lineas (i + 1) l hi
      · intro k hk
        apply hfuera.limpias
        intro i l hi
        cases i with
        | zero => cases hi
        | succ i => exact hk i l hi
    exact ih hcola

end CacheDiferida

import Tpssoo.Bucles

/-!
# Radix tables of fixed depth

A table with `n` levels below it: at depth zero a row of entries, above it a row of
optional subtables. `aplanar` is the row of all `E ^ (n + 1)` entries in key order, with
blank entries where a subtable was never created; every walk over the tree is a loop
over that row, and a descent by the base-`E` digits of a key reads it at the key.
-/
namespace ArbolRadix

open Bucles

universe u v
variable {α : Type u} {β : Type v} {σ : Type*}

def Tabla (α : Type u) : ℕ → Type u
  | 0 => List α
  | n + 1 => List (Option (Tabla α n))

/-- A depth-first walk that applies a row loop to every last-level table. -/
def recorrer (g : σ → List α → σ × List α) : (n : ℕ) → σ → Tabla α n → σ × Tabla α n
  | 0, s, t => g s t
  | n + 1, s, t =>
    bucle (fun s (h : Option (Tabla α n)) =>
      match h with
      | none => (s, none)
      | some u => ((recorrer g n s u).1, some (recorrer g n s u).2)) s t

/-- A depth-first walk that only reads the entries. -/
def plegar (f : σ → α → σ) : (n : ℕ) → σ → Tabla α n → σ
  | 0, s, t => List.foldl f s t
  | n + 1, s, t =>
    List.foldl (fun s (h : Option (Tabla α n)) =>
      match h with
      | none => s
      | some u => plegar f n s u) s t

/-- A fresh table: blank entries, or no subtables. -/
def crear (E : ℕ) (vacia : α) : (n : ℕ) → Tabla α n
  | 0 => List.replicate E vacia
  | _ + 1 => List.replicate E none

/-- A depth-first walk that creates the missing subtables on its way and stops when the
guard fails. -/
def poblar (E : ℕ) (vacia : α) (seguir : σ → Bool) (f : σ → α → Bool × σ × α) :
    (n : ℕ) → σ → Tabla α n → Bool × σ × Tabla α n
  | 0, s, t => bucleMientras seguir f s t
  | n + 1, s, t =>
    bucleMientras seguir (fun s (h : Option (Tabla α n)) =>
      let r := poblar E vacia seguir f n s (h.getD (crear E vacia n))
      (r.1, r.2.1, some r.2.2)) s t

/-- The iterative descent: one index for each level, `none` at a missing table. -/
def buscar (indice : ℕ → ℕ) : (n : ℕ) → Tabla α n → Option α
  | 0, t => let entradas : List α := t; entradas[indice 0]?
  | n + 1, t =>
    let punteros : List (Option (Tabla α n)) := t
    match punteros[indice (n + 1)]? with
    | some (some u) => buscar indice n u
    | _ => none

def aplanar (E : ℕ) (vacia : α) : (n : ℕ) → Tabla α n → List α
  | 0, t => t
  | n + 1, t =>
    List.flatMap (fun (h : Option (Tabla α n)) =>
      match h with
      | none => List.replicate (E ^ (n + 1)) vacia
      | some u => aplanar E vacia n u) t

/-- Every table of the tree has exactly `E` entries. -/
def Forma (E : ℕ) : (n : ℕ) → Tabla α n → Prop
  | 0, t => List.length t = E
  | n + 1, t =>
    let punteros : List (Option (Tabla α n)) := t
    punteros.length = E ∧ ∀ u, some u ∈ punteros → Forma E n u

section Recorridos

variable {E : ℕ} {vacia : α}

/-- A walk whose body ignores blank entries is one loop over the flat row. -/
theorem aplanar_recorrer (E : ℕ) {f : σ → α → σ × α} (hv : ∀ s, f s vacia = (s, vacia)) (n : ℕ)
    (s : σ) (t : Tabla α n) :
    (recorrer (bucle f) n s t).1 = (bucle f s (aplanar E vacia n t)).1 ∧
      aplanar E vacia n (recorrer (bucle f) n s t).2 = (bucle f s (aplanar E vacia n t)).2 := by
  induction n generalizing s with
  | zero => exact ⟨rfl, rfl⟩
  | succ n ih =>
    simp only [recorrer, aplanar]
    change List (Option (Tabla α n)) at t
    induction t generalizing s with
    | nil => exact ⟨rfl, rfl⟩
    | cons h hs iht =>
      cases h with
      | none =>
        simp only [bucle, List.flatMap_cons, bucle_append, bucle_replicate (hv s)]
        exact ⟨(iht s).1, congrArg _ (iht s).2⟩
      | some u =>
        obtain ⟨h₁, h₂⟩ := ih s u
        simp only [bucle, List.flatMap_cons, bucle_append, h₁, h₂]
        exact ⟨(iht _).1, congrArg _ (iht _).2⟩

theorem plegar_eq_foldl (E : ℕ) (vacia : α) {f : σ → α → σ} (hv : ∀ s, f s vacia = s)
    (n : ℕ) (s : σ)
    (t : Tabla α n) : plegar f n s t = (aplanar E vacia n t).foldl f s := by
  have hrep : ∀ k s, (List.replicate k vacia).foldl f s = s := by
    intro k
    induction k with
    | zero => intro s; rfl
    | succ k ih => intro s; simp [List.replicate_succ, hv, ih]
  induction n generalizing s with
  | zero => rfl
  | succ n ih =>
    simp only [plegar, aplanar]
    change List (Option (Tabla α n)) at t
    induction t generalizing s with
    | nil => rfl
    | cons h hs iht =>
      cases h with
      | none => simpa [List.foldl_append, hrep] using iht s
      | some u => simpa [List.foldl_append, ih] using iht _

theorem forma_recorrer {g : σ → List α → σ × List α} (hg : ∀ s xs, (g s xs).2.length = xs.length)
    {n : ℕ} {s : σ} {t : Tabla α n} (h : Forma E n t) : Forma E n (recorrer g n s t).2 := by
  induction n generalizing s with
  | zero => exact (hg s t).trans h
  | succ n ih =>
    refine ⟨(length_bucle _ s t).trans h.1, ?_⟩
    have hu := h.2
    clear h
    simp only [recorrer]
    change List (Option (Tabla α n)) at t
    induction t generalizing s with
    | nil => simp [bucle]
    | cons h hs iht =>
      intro u hm
      cases h with
      | none =>
        simp only [bucle, List.mem_cons, reduceCtorEq, false_or] at hm
        exact iht (fun u hu' => hu u (List.mem_cons_of_mem _ hu')) u hm
      | some w =>
        simp only [bucle, List.mem_cons, Option.some.injEq] at hm
        rcases hm with rfl | hm
        · exact ih (hu w (by simp))
        · exact iht (fun u hu' => hu u (List.mem_cons_of_mem _ hu')) u hm

/-- What a walk does to the tree depends only on the part of the state that its row loop sees. -/
theorem recorrer_vista {τ : Type*} {g : σ → List α → σ × List α} {g' : τ → List α → τ × List α}
    (v : τ → σ) (hg : ∀ r xs, (v (g' r xs).1, (g' r xs).2) = g (v r) xs) (n : ℕ) (r : τ)
    (t : Tabla α n) : (v (recorrer g' n r t).1, (recorrer g' n r t).2) = recorrer g n (v r) t := by
  induction n generalizing r with
  | zero => exact hg r t
  | succ n ih =>
    refine bucle_vista v (fun r h => ?_) r t
    cases h with
    | none => rfl
    | some u =>
      dsimp only
      rw [← ih]

/-- A property of the state and of the entries still to visit that every row loop keeps, and
that blank entries do not matter for, is kept by the whole walk. -/
theorem recorrer_regla (E : ℕ) (vacia : α) {g : σ → List α → σ × List α} {I : σ → List α → Prop}
    (hg : ∀ s xs ys, I s (xs ++ ys) → I (g s xs).1 ys) (hv : ∀ s ys, I s (vacia :: ys) → I s ys)
    (n : ℕ) (s : σ) (t : Tabla α n) (ys : List α) (h : I s (aplanar E vacia n t ++ ys)) :
    I (recorrer g n s t).1 ys := by
  have hvacias : ∀ k s ys, I s (List.replicate k vacia ++ ys) → I s ys := by
    intro k
    induction k with
    | zero => exact fun s ys h => h
    | succ k ih => exact fun s ys h => ih s ys (hv s _ h)
  induction n generalizing s ys with
  | zero => exact hg s t ys h
  | succ n ih =>
    simp only [recorrer]
    simp only [aplanar] at h
    change List (Option (Tabla α n)) at t
    induction t generalizing s with
    | nil => exact h
    | cons o os iht =>
      rw [List.flatMap_cons, List.append_assoc] at h
      cases o with
      | none => exact iht s (hvacias _ s _ h)
      | some u => exact iht _ (ih s u _ h)

theorem forma_crear (n : ℕ) : Forma E n (crear E vacia n) := by
  cases n with
  | zero => exact List.length_replicate
  | succ n =>
    refine ⟨List.length_replicate, ?_⟩
    intro u hu
    cases List.eq_of_mem_replicate hu

theorem forma_poblar {seguir : σ → Bool} {f : σ → α → Bool × σ × α} {n : ℕ} {s : σ}
    {t : Tabla α n} (h : Forma E n t) : Forma E n (poblar E vacia seguir f n s t).2.2 := by
  induction n generalizing s with
  | zero => exact (length_bucleMientras s t).trans h
  | succ n ih =>
    refine ⟨(length_bucleMientras s t).trans h.1, ?_⟩
    have hm := mem_bucleMientras seguir (P := fun h : Option (Tabla α n) => ∀ u, h = some u →
        Forma E n u)
      (f := fun s h => ((poblar E vacia seguir f n s (h.getD (crear E vacia n))).1,
        (poblar E vacia seguir f n s (h.getD (crear E vacia n))).2.1,
        some (poblar E vacia seguir f n s (h.getD (crear E vacia n))).2.2)) (s := s)
      (fun h' hh u hu => h.2 u (hu ▸ hh)) (by
        intro s h' hh u hu
        cases hu
        apply ih
        cases h' with
        | none => exact forma_crear n
        | some w => exact hh w rfl)
    intro u hu
    exact hm _ hu u rfl

theorem length_aplanar {n : ℕ} {t : Tabla α n} (h : Forma E n t) :
    (aplanar E vacia n t).length = E ^ (n + 1) := by
  induction n with
  | zero => simpa [aplanar, Forma] using h
  | succ n ih =>
    obtain ⟨hl, hu⟩ := h
    simp only [aplanar]
    change List (Option (Tabla α n)) at t
    have key : ∀ k, t.length = k → (List.flatMap (fun (h : Option (Tabla α n)) =>
        match h with
        | none => List.replicate (E ^ (n + 1)) vacia
        | some u => aplanar E vacia n u) t).length = k * E ^ (n + 1) := by
      clear hl
      induction t with
      | nil => rintro k rfl; simp
      | cons h hs iht =>
        rintro k rfl
        have := iht (fun u hu' => hu u (List.mem_cons_of_mem h hu')) hs.length rfl
        cases h with
        | none => simp only [List.flatMap_cons, List.length_append, List.length_replicate, this,
            List.length_cons]; ring
        | some u =>
          simp only [List.flatMap_cons, List.length_append, ih (hu u (by simp)), this,
            List.length_cons]; ring
    rw [key E hl]
    ring

/-- Populating a fresh tree is the guarded loop over a row of blank entries. -/
theorem poblar_crear (E : ℕ) (vacia : α) (seguir : σ → Bool) (f : σ → α → Bool × σ × α)
    (n : ℕ) (s : σ) :
    let r := poblar E vacia seguir f n s (crear E vacia n)
    (r.1, r.2.1, aplanar E vacia n r.2.2) =
      bucleMientras seguir f s (List.replicate (E ^ (n + 1)) vacia) := by
  induction n generalizing s with
  | zero => simp [poblar, crear, aplanar]
  | succ n ih =>
    have key : ∀ k s,
        let r := bucleMientras seguir (fun s (h : Option (Tabla α n)) =>
          let r := poblar E vacia seguir f n s (h.getD (crear E vacia n))
          (r.1, r.2.1, some r.2.2)) s (List.replicate k none)
        (r.1, r.2.1, aplanar E vacia (n + 1) r.2.2) =
          bucleMientras seguir f s (List.replicate (k * E ^ (n + 1)) vacia) := by
      intro k
      induction k with
      | zero => intro s; simp [bucleMientras, aplanar]
      | succ k ihk =>
        intro s
        have hsplit : List.replicate ((k + 1) * E ^ (n + 1)) vacia =
            List.replicate (E ^ (n + 1)) vacia ++ List.replicate (k * E ^ (n + 1)) vacia := by
          rw [List.replicate_append_replicate]
          congr 1
          ring
        by_cases hs : seguir s
        · have h₀ := ih s
          simp only at h₀
          rw [hsplit, bucleMientras_append, ← h₀]
          simp only [List.replicate_succ, bucleMientras, hs, if_true, Option.getD_none]
          by_cases hr : (poblar E vacia seguir f n s (crear E vacia n)).1
          · have h₁ := ihk (poblar E vacia seguir f n s (crear E vacia n)).2.1
            simp only at h₁
            simp only [hr, if_true, ← h₁]
            rfl
          · have hr' : (poblar E vacia seguir f n s (crear E vacia n)).1 =
                false := by simpa using hr
            simp only [hr', aplanar, List.flatMap_cons, List.flatMap_replicate,
              List.flatten_replicate_replicate, Bool.false_eq_true, if_false]
        · have hs' : seguir s = false := by simpa using hs
          rw [bucleMientras_parado hs', bucleMientras_parado hs']
          simp [aplanar, List.flatMap_replicate, List.flatten_replicate_replicate]
    have := key E s
    simp only [poblar, crear]
    rw [show E ^ (n + 1 + 1) = E * E ^ (n + 1) by ring]
    exact this

/-- What `poblar` does to the tree depends only on the part of the state that its body and its
guard see. -/
theorem poblar_vista {τ : Type*} (seguir : σ → Bool) {f : σ → α → Bool × σ × α} {seguir' : τ → Bool}
    {f' : τ → α → Bool × τ × α} (g : τ → σ) (hs : ∀ t, seguir' t = seguir (g t))
    (hf : ∀ t a, ((f' t a).1, g (f' t a).2.1, (f' t a).2.2) = f (g t) a) (n : ℕ) (r : τ)
    (t : Tabla α n) :
    ((poblar E vacia seguir' f' n r t).1, g (poblar E vacia seguir' f' n r t).2.1,
      (poblar E vacia seguir' f' n r t).2.2) = poblar E vacia seguir f n (g r) t := by
  induction n generalizing r with
  | zero => exact bucleMientras_vista g hs hf r t
  | succ n ih =>
    refine bucleMientras_vista g hs (fun r h => ?_) r t
    rw [← ih]

end Recorridos

section Busqueda

variable {E : ℕ} {vacia : α}

theorem buscar_succ (indice : ℕ → ℕ) {n : ℕ} (t : List (Option (Tabla α n))) :
    buscar indice (n + 1) t = (t[indice (n + 1)]?).join.bind (buscar indice n) := by
  simp only [buscar]
  cases t[indice (n + 1)]? with
  | none => rfl
  | some h => cases h <;> rfl

/-- A descent reads one index for each level. -/
theorem buscar_congr {indice indice' : ℕ → ℕ} {n : ℕ} (h : ∀ k ≤ n, indice k = indice' k)
    (t : Tabla α n) : buscar indice n t = buscar indice' n t := by
  induction n with
  | zero =>
    have h₀ := h 0 le_rfl
    simp only [buscar, h₀]
  | succ n ih =>
    have hresto : (buscar indice n : Tabla α n → Option α) = buscar indice' n := by
      funext u
      exact ih (fun k hk => h k (Nat.le_succ_of_le hk)) u
    change List (Option (Tabla α n)) at t
    rw [buscar_succ, buscar_succ, h (n + 1) le_rfl, hresto]

theorem mem_aplanar_buscar (E : ℕ) (vacia : α) (indice : ℕ → ℕ) {n : ℕ} {t : Tabla α n} {e : α}
    (h : buscar indice n t = some e) : e ∈ aplanar E vacia n t := by
  induction n with
  | zero => exact List.mem_of_getElem? h
  | succ n ih =>
    change List (Option (Tabla α n)) at t
    rw [buscar_succ] at h
    obtain ⟨u, hu, hbusca⟩ := Option.bind_eq_some_iff.mp h
    have hmem : some u ∈ t := List.mem_of_getElem? (Option.join_eq_some_iff.mp hu)
    exact List.mem_flatMap.mpr ⟨some u, hmem, ih hbusca⟩

theorem getElem?_flatMap_bloques {γ : Type*} {g : γ → List α} {m : ℕ} (hm : 0 < m) {xs : List γ}
    (h : ∀ x ∈ xs, (g x).length = m) (p : ℕ) :
    (xs.flatMap g)[p]? = (xs[p / m]?).bind (fun x => (g x)[p % m]?) := by
  induction xs generalizing p with
  | nil => simp
  | cons x xs ih =>
    have hx : (g x).length = m := h x (by simp)
    rw [List.flatMap_cons]
    by_cases hp : p < m
    · rw [List.getElem?_append_left (by omega), Nat.div_eq_of_lt hp, Nat.mod_eq_of_lt hp]
      rfl
    · have hp' : m ≤ p := Nat.le_of_not_lt hp
      rw [List.getElem?_append_right (by omega), hx,
        ih (fun y hy => h y (List.mem_cons_of_mem _ hy)),
        Nat.div_eq_sub_div hm hp', List.getElem?_cons_succ, Nat.mod_eq_sub_mod hp']

/-- Descending by the base-`E` digits of a key reads the flat row at that key; a missing
table stands for a blank entry. -/
theorem getD_buscar (vacia : α) (indice : ℕ → ℕ) {n : ℕ} {t : Tabla α n} (h : Forma E n t) {p : ℕ}
    (hp : p < E ^ (n + 1)) (hi : ∀ k ≤ n, indice k = p / E ^ k % E) :
    (aplanar E vacia n t)[p]? = some ((buscar indice n t).getD vacia) := by
  have hE : 0 < E := by
    rcases Nat.eq_zero_or_pos E with rfl | h
    · simp at hp
    · exact h
  induction n generalizing p with
  | zero =>
    simp only [zero_add, pow_one] at hp
    have hi₀ : indice 0 = p := by
      rw [hi 0 le_rfl, pow_zero, Nat.div_one, Nat.mod_eq_of_lt hp]
    change List α at t
    change t.length = E at h
    simp only [aplanar, buscar, hi₀]
    rw [List.getElem?_eq_getElem (by omega)]
    rfl
  | succ n ih =>
    have hm : 0 < E ^ (n + 1) := Nat.pow_pos hE
    have hq : p / E ^ (n + 1) < E := by
      rw [Nat.div_lt_iff_lt_mul hm]
      calc p < E ^ (n + 1 + 1) := hp
        _ = E * E ^ (n + 1) := by ring
    have hi₀ : indice (n + 1) = p / E ^ (n + 1) := by
      rw [hi _ le_rfl, Nat.mod_eq_of_lt hq]
    have hr : p % E ^ (n + 1) < E ^ (n + 1) := Nat.mod_lt _ hm
    have hik : ∀ k ≤ n, indice k = p % E ^ (n + 1) / E ^ k % E := by
      intro k hk
      rw [hi k (by omega), show n + 1 = k + (n - k + 1) by omega, pow_add,
        Nat.mod_mul_right_div_self, Nat.pow_succ', Nat.mod_mul_right_mod]
    obtain ⟨hl, hu⟩ := h
    change List (Option (Tabla α n)) at t
    simp only [aplanar]
    rw [getElem?_flatMap_bloques hm (by
      intro x hx
      cases x with
      | none => exact List.length_replicate
      | some u => exact length_aplanar (hu u hx))]
    change t.length = E at hl
    have hlt : p / E ^ (n + 1) < t.length := hl ▸ hq
    have hget : t[p / E ^ (n + 1)]? = some t[p / E ^ (n + 1)] :=
      List.getElem?_eq_getElem (by omega)
    simp only [buscar, hi₀, hget, Option.bind_some]
    have hmem : t[p / E ^ (n + 1)] ∈ t := List.getElem_mem _
    cases hx : t[p / E ^ (n + 1)] with
    | none => simp [hr]
    | some u => exact ih (hu u (hx ▸ hmem)) hr hik

end Busqueda

end ArbolRadix

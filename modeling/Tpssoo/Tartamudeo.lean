import Mathlib.Data.Option.Basic
import Mathlib.Data.List.Basic

/-!
# Stuttering simulation

A machine driven by events against a deterministic machine without events. Events that
advance are matched by one step, the others by one step or none, so a run is matched by a
number of steps between its events that advance and all of them.
-/
namespace Tartamudeo

variable {ε σ τ : Type*} {paso : ε → σ → Option σ} {plano : τ → Option τ} {R : σ → τ → Prop}
  {P : ε → σ → Prop} {Q : τ → Prop} {avanza : ε → Bool}

/-- A run, one event at a time. -/
def correr (paso : ε → σ → Option σ) : List ε → σ → Option σ
  | [], s => some s
  | e :: es, s => (paso e s).bind (correr paso es)

def repetir (plano : τ → Option τ) : ℕ → τ → Option τ
  | 0, t => some t
  | k + 1, t => (plano t).bind (repetir plano k)

/-- Every step of the run meets a condition on its event and on the state before it. -/
def Cumple (paso : ε → σ → Option σ) (P : ε → σ → Prop) : List ε → σ → Prop
  | [], _ => True
  | e :: es, s => P e s ∧ ∀ s' ∈ paso e s, Cumple paso P es s'

instance decidableCumple [∀ e s, Decidable (P e s)] :
    ∀ (es : List ε) (s : σ), Decidable (Cumple paso P es s)
  | [], _ => inferInstanceAs (Decidable True)
  | e :: es, s =>
    have : ∀ s', Decidable (Cumple paso P es s') := decidableCumple es
    inferInstanceAs (Decidable (P e s ∧ ∀ s' ∈ paso e s, Cumple paso P es s'))

def CumpleRepetir (plano : τ → Option τ) (Q : τ → Prop) : ℕ → τ → Prop
  | 0, _ => True
  | k + 1, t => Q t ∧ ∀ t', plano t = some t' → CumpleRepetir plano Q k t'

/-- The step conditions of a stuttering simulation. `P` allows a step, and then `Q` holds of
the state that matches the one before it. -/
structure Simula (paso : ε → σ → Option σ) (plano : τ → Option τ) (R : σ → τ → Prop)
    (P : ε → σ → Prop) (Q : τ → Prop) (avanza : ε → Bool) : Prop where
  permite : ∀ e s t, R s t → P e s → Q t
  avanza : ∀ e s t, R s t → P e s → avanza e = true → Option.Rel R (paso e s) (plano t)
  tartamudea : ∀ e s t, R s t → P e s →
    Option.Rel R (paso e s) (plano t) ∨ Option.Rel R (paso e s) (some t)

@[simp] theorem correr_nil (s : σ) : correr paso [] s = some s := rfl

@[simp] theorem correr_cons (e : ε) (es : List ε) (s : σ) :
    correr paso (e :: es) s = (paso e s).bind (correr paso es) := rfl

theorem correr_append (es es' : List ε) (s : σ) :
    correr paso (es ++ es') s = (correr paso es s).bind (correr paso es') := by
  induction es generalizing s with
  | nil => rfl
  | cons e es ih =>
    rw [List.cons_append, correr_cons, correr_cons, Option.bind_assoc]
    congr 1
    funext s'
    exact ih s'

/-- What every step that meets the condition keeps holds after every run of such steps. -/
theorem invariante_corrida {I : σ → Prop}
    (hpaso : ∀ e s s', I s → P e s → paso e s = some s' → I s') {es : List ε} {s s' : σ}
    (hs : I s) (hP : Cumple paso P es s) (hrun : correr paso es s = some s') : I s' := by
  induction es generalizing s with
  | nil =>
    cases hrun
    exact hs
  | cons e es ih =>
    obtain ⟨s₁, hs₁, hresto⟩ := Option.bind_eq_some_iff.mp hrun
    exact ih (hpaso e s s₁ hs hP.1 hs₁) (hP.2 s₁ hs₁) hresto

theorem cumple_siempre (h : ∀ e s, P e s) (es : List ε) (s : σ) : Cumple paso P es s := by
  induction es generalizing s with
  | nil => trivial
  | cons e es ih => exact ⟨h e s, fun s' _ => ih s'⟩

/-- A condition that the events of a run meet by themselves. -/
theorem cumple_con {A : ε → Prop} {es : List ε} {s : σ} (hP : Cumple paso P es s)
    (hA : ∀ e ∈ es, A e) : Cumple paso (fun e s => P e s ∧ A e) es s := by
  induction es generalizing s with
  | nil => trivial
  | cons e es ih =>
    refine ⟨⟨hP.1, hA e List.mem_cons_self⟩, fun s' hs' => ih (hP.2 s' hs') ?_⟩
    exact fun e' he' => hA e' (List.mem_cons_of_mem e he')

/-- What no step brings held before a run after which it holds. -/
theorem antes_de_corrida {D : σ → Prop} (hatras : ∀ e s s', paso e s = some s' → D s' → D s)
    {es : List ε} {s s' : σ} (hrun : correr paso es s = some s') (hD : D s') : D s := by
  induction es generalizing s with
  | nil =>
    cases hrun
    exact hD
  | cons e es ih =>
    obtain ⟨s₁, hs₁, hresto⟩ := Option.bind_eq_some_iff.mp hrun
    exact hatras e s s₁ hs₁ (ih hresto)

/-- An invariant that only the steps into a state with `D` are known to keep. -/
theorem invariante_mientras {I D : σ → Prop}
    (hatras : ∀ e s s', paso e s = some s' → D s' → D s)
    (hpaso : ∀ e s s', I s → P e s → paso e s = some s' → D s' → I s') {es : List ε} {s s' : σ}
    (hs : I s) (hP : Cumple paso P es s) (hrun : correr paso es s = some s') (hD : D s') :
    I s' := by
  induction es generalizing s with
  | nil =>
    cases hrun
    exact hs
  | cons e es ih =>
    obtain ⟨s₁, hs₁, hresto⟩ := Option.bind_eq_some_iff.mp hrun
    have hD₁ : D s₁ := antes_de_corrida hatras hresto hD
    exact ih (hpaso e s s₁ hs hP.1 hs₁ hD₁) (hP.2 s₁ hs₁) hresto

/-- A run whose steps are, on a part of the state, steps of another machine or none is there a
run of that machine. -/
theorem corrida_proyectada {ε' : Type*} {paso' : ε' → τ → Option τ} {P' : ε' → τ → Prop}
    {f : σ → τ} {I D : σ → Prop} (hatras : ∀ e s s', paso e s = some s' → D s' → D s)
    (hpaso : ∀ e s s', I s → P e s → paso e s = some s' → D s' →
      I s' ∧ (f s' = f s ∨ ∃ e', P' e' (f s) ∧ paso' e' (f s) = some (f s')))
    {es : List ε} {s s' : σ} (hs : I s) (hP : Cumple paso P es s)
    (hrun : correr paso es s = some s') (hD : D s') :
    ∃ es', Cumple paso' P' es' (f s) ∧ correr paso' es' (f s) = some (f s') := by
  induction es generalizing s with
  | nil =>
    cases hrun
    exact ⟨[], trivial, rfl⟩
  | cons e es ih =>
    obtain ⟨s₁, hs₁, hresto⟩ := Option.bind_eq_some_iff.mp hrun
    have hD₁ : D s₁ := antes_de_corrida hatras hresto hD
    obtain ⟨hI, hf⟩ := hpaso e s s₁ hs hP.1 hs₁ hD₁
    obtain ⟨es', hC, hrun'⟩ := ih hI (hP.2 s₁ hs₁) hresto
    rcases hf with hf | ⟨e', hP', he'⟩
    · rw [← hf]
      exact ⟨es', hC, hrun'⟩
    · refine ⟨e' :: es', ⟨hP', fun t ht => ?_⟩, ?_⟩
      · cases (Option.mem_def.mp ht).symm.trans he'
        exact hC
      · rw [correr_cons, he']
        exact hrun'

theorem corrida_simulada (h : Simula paso plano R P Q avanza) {es : List ε} {s : σ} {t : τ}
    (hR : R s t) (hP : Cumple paso P es s) :
    ∃ k, es.countP avanza ≤ k ∧ k ≤ es.length ∧ Option.Rel R (correr paso es s)
      (repetir plano k t) ∧
      CumpleRepetir plano Q k t := by
  induction es generalizing s t with
  | nil => exact ⟨0, Nat.le_refl _, Nat.le_refl _, .some hR, trivial⟩
  | cons e es ih =>
    obtain ⟨hPs, hPes⟩ := hP
    have hQ := h.permite e s t hR hPs
    -- a step of both machines
    have hjuntos : Option.Rel R (paso e s) (plano t) →
        ∃ k, (e :: es).countP avanza ≤ k ∧ k ≤ (e :: es).length ∧
          Option.Rel R (correr paso (e :: es) s) (repetir plano k t) ∧
            CumpleRepetir plano Q k t := by
      intro hrel
      rw [correr_cons]
      rcases hx : paso e s with _ | s' <;> rcases hy : plano t with _ | t' <;> rw [hx, hy] at hrel
      · refine ⟨es.length + 1, ?_, Nat.le_refl _, ?_, hQ, ?_⟩
        · exact List.countP_le_length
        · rw [repetir, hy]
          exact .none
        · intro t' ht'
          rw [hy] at ht'
          cases ht'
      · cases hrel
      · cases hrel
      · obtain ⟨hR'⟩ := hrel
        obtain ⟨k, hmin, hmax, hk, hQk⟩ := ih hR' (hPes s' hx)
        refine ⟨k + 1, ?_, Nat.succ_le_succ hmax, ?_, hQ, ?_⟩
        · rw [List.countP_cons]
          split <;> omega
        · rw [repetir, hy]
          exact hk
        · intro t'' ht''
          rw [hy] at ht''
          cases ht''
          exact hQk
    cases hav : avanza e with
    | true => exact hjuntos (h.avanza e s t hR hPs hav)
    | false =>
      rcases h.tartamudea e s t hR hPs with hrel | hrel
      · exact hjuntos hrel
      · rw [correr_cons]
        rcases hx : paso e s with _ | s' <;> rw [hx] at hrel
        · cases hrel
        · obtain ⟨hR'⟩ := hrel
          obtain ⟨k, hmin, hmax, hk, hQk⟩ := ih hR' (hPes s' hx)
          refine ⟨k, ?_, Nat.le_succ_of_le hmax, hk, hQk⟩
          rw [List.countP_cons, hav, if_neg Bool.false_ne_true]
          exact hmin

/-- The run of an event that advances, while its steps are allowed. -/
theorem repetida_simulada (h : Simula paso plano R P Q avanza) {e : ε} (he : avanza e = true)
    (hQP : ∀ s t, R s t → Q t → P e s) {k : ℕ} {s : σ} {t : τ} (hR : R s t)
    (hQ : CumpleRepetir plano Q k t) :
    Option.Rel R (correr paso (List.replicate k e) s) (repetir plano k t) := by
  induction k generalizing s t with
  | zero => exact .some hR
  | succ k ih =>
    obtain ⟨hQt, hQk⟩ := hQ
    have hrel := h.avanza e s t hR (hQP s t hR hQt) he
    rw [List.replicate_succ, correr_cons, repetir]
    rcases hx : paso e s with _ | s' <;> rcases hy : plano t with _ | t' <;> rw [hx, hy] at hrel
    · exact .none
    · cases hrel
    · cases hrel
    · obtain ⟨hR'⟩ := hrel
      exact ih hR' (hQk t' hy)

theorem rel_juntar {α β γ : Type*} {R : α → γ → Prop} {S : β → γ → Prop} {a : Option α}
    {b : Option β}
    {c : Option γ} (ha : Option.Rel R a c) (hb : Option.Rel S b c) :
    Option.Rel (fun x y => ∃ z, R x z ∧ S y z) a b := by
  cases ha with
  | none =>
    cases hb
    exact .none
  | some hx =>
    cases hb with
    | some hy => exact .some ⟨_, hx, hy⟩

/-- A run with any events against the run in which every event is `e`. -/
theorem corridas_juntas (h : Simula paso plano R P Q avanza) {e : ε} (he : avanza e = true)
    (hQP : ∀ s t, R s t → Q t → P e s) {es : List ε} {s : σ} {t : τ} (hR : R s t)
    (hP : Cumple paso P es s) :
    ∃ k, es.countP avanza ≤ k ∧ k ≤ es.length ∧
      Option.Rel (fun x y => ∃ z, R x z ∧ R y z) (correr paso es s)
        (correr paso (List.replicate k e) s) := by
  obtain ⟨k, hmin, hmax, hrel, hQ⟩ := corrida_simulada h hR hP
  exact ⟨k, hmin, hmax, rel_juntar hrel (repetida_simulada h he hQP hR hQ)⟩

end Tartamudeo

import Tpssoo.CpuCiclo

/-!
# Turns of the cycle, with their log

A turn of `ciclo_instruccion` as it is seen from outside: where it started, the accesses it
logged with their values, and how it ended. A lone machine takes turns one after the other,
from the program counters and with the interrupts that it is given.
-/
namespace CpuGiros

open EnterosC Protocolo CpuAccesos CpuInstrucciones CpuCiclo

/-- What the log says of an access: its parameters, and the bytes or the fault. -/
abbrev Registro := Acceso × Resultado

/-- A turn, seen from outside. The states of its end are left out. -/
structure Giro where
  programCounter : ℤ
  pendiente : Bool
  accesos : List Registro
  salida : Vuelta Unit

/-- What a turn is given: the program counter, and whether an interrupt is pending. -/
def Giro.entrada (g : Giro) : ℤ × Bool := (g.programCounter, g.pendiente)

/-- The program counter at which the burst goes on. -/
def Giro.sigue (g : Giro) : Option ℤ :=
  match g.salida with
  | .sigue _ pc _ => some pc
  | .termina _ _ _ => none

section Definiciones

variable {σ : Type} (M : Maquina σ)

/-- A machine that writes its accesses down. -/
def anotada : Maquina (σ × List Registro) where
  fetch s pc := (M.fetch s.1 pc).map fun r => (r.1, r.2, s.2)
  acceso s acc := (M.acceso s.1 acc).map fun r => (r.1, r.2, s.2 ++ [(acc, r.1)])
  limpiar s := (M.limpiar s.1).map fun s' => (s', s.2)

/-- One turn of the loop, and the cleaning after the one that ends the burst. -/
def giro (pendiente : Bool) (s : σ) (pc : ℤ) : Option (Giro × σ) := do
  match ← vuelta (anotada M) pendiente (s, []) pc with
  | .sigue (s', accesos) pc' nuevas =>
    return (⟨pc, pendiente, accesos, .sigue () pc' nuevas⟩, s')
  | .termina (s', accesos) r nuevas => do
    let s'' ← M.limpiar s'
    return (⟨pc, pendiente, accesos, .termina () r nuevas⟩, s'')

def girar : σ → List (ℤ × Bool) → Option (List Giro × σ)
  | s, [] => some ([], s)
  | s, (pc, pendiente) :: es => do
    let (g, s₁) ← giro M pendiente s pc
    let (gs, s₂) ← girar s₁ es
    return (g :: gs, s₂)

end Definiciones

section Reglas

variable {σ τ : Type} {M : Maquina σ} {N : Maquina τ} {R L : σ → τ → Prop} {A : Acceso → Prop}
  {s s' : σ} {t : τ} {pc : ℤ} {pendiente : Bool} {g : Giro}

theorem entrada_giro (h : giro M pendiente s pc = some (g, s')) : g.entrada = (pc, pendiente) := by
  rw [giro] at h
  obtain ⟨v, -, h⟩ := Option.bind_eq_some_iff.mp h
  cases v with
  | sigue x pc' nuevas =>
    cases h
    rfl
  | termina x r nuevas =>
    obtain ⟨s'', -, h⟩ := Option.bind_eq_some_iff.mp h
    cases h
    rfl

theorem girar_append (es es' : List (ℤ × Bool)) (s : σ) :
    girar M s (es ++ es') = (girar M s es).bind fun r =>
      (girar M r.2 es').map fun r' => (r.1 ++ r'.1, r'.2) := by
  induction es generalizing s with
  | nil =>
    rw [List.nil_append, girar, Option.bind_some]
    exact Option.map_id'.symm
  | cons e es ih =>
    obtain ⟨pc, pendiente⟩ := e
    rw [List.cons_append, girar, girar]
    cases giro M pendiente s pc with
    | none => rfl
    | some r =>
      obtain ⟨g, s₁⟩ := r
      simp only [Option.bind_eq_bind, Option.bind_some, ih, Option.pure_def]
      cases girar M s₁ es with
      | none => rfl
      | some r =>
        obtain ⟨gs, s₂⟩ := r
        simp only [Option.bind_some]
        cases girar M s₂ es' <;> rfl

/-- One more turn after those of a run. -/
theorem girar_otra {es : List (ℤ × Bool)} {gs : List Giro} {s₁ s₂ : σ}
    (h : girar M s es = some (gs, s₁)) (hg : giro M pendiente s₁ pc = some (g, s₂)) :
    girar M s (es ++ [(pc, pendiente)]) = some (gs ++ [g], s₂) := by
  rw [girar_append, h, Option.bind_some, girar, hg]
  rfl

/-- Related machines write the same down. -/
theorem anotadas_relacionadas (h : Relacionadas M N R L A) :
    Relacionadas (anotada M) (anotada N) (fun x y => R x.1 y.1 ∧ x.2 = y.2)
      (fun x y => L x.1 y.1) A where
  fetch := by
    rintro ⟨s, l⟩ ⟨t, l'⟩ pc ⟨hR, hl⟩
    have hrel := h.fetch s t pc hR
    change Option.Rel _ ((M.fetch s pc).map _) ((N.fetch t pc).map _)
    cases hx : M.fetch s pc <;> cases hy : N.fetch t pc <;> rw [hx, hy] at hrel
    · exact .none
    · cases hrel
    · cases hrel
    · obtain ⟨hinst, hR'⟩ := hrel
      exact .some ⟨hinst, hR', hl⟩
  acceso := by
    rintro ⟨s, l⟩ ⟨t, l'⟩ acc ⟨hR, hl⟩ hA
    have hrel := h.acceso s t acc hR hA
    change Option.Rel _ ((M.acceso s acc).map _) ((N.acceso t acc).map _)
    rcases hx : M.acceso s acc with _ | ⟨r, s'⟩ <;>
      rcases hy : N.acceso t acc with _ | ⟨r', t'⟩ <;> rw [hx, hy] at hrel
    · exact .none
    · cases hrel
    · cases hrel
    · obtain ⟨hr, hR'⟩ := hrel
      dsimp only at hl hr
      subst hl hr
      exact .some ⟨rfl, hR', rfl⟩
  limpiar := by
    rintro ⟨s, l⟩ ⟨t, l'⟩ ⟨hR, hl⟩
    have hrel := h.limpiar s t hR
    change Option.Rel _ ((M.limpiar s).map _) ((N.limpiar t).map _)
    cases hx : M.limpiar s <;> cases hy : N.limpiar t <;> rw [hx, hy] at hrel
    · exact .none
    · cases hrel
    · cases hrel
    · obtain ⟨hR', hL⟩ := hrel
      exact .some ⟨⟨hR', hl⟩, hL⟩

/-- The instruction that a turn takes has its accesses in `A`. -/
def TurnoEn (M : Maquina σ) (A : Acceso → Prop) (s : σ) (pc : ℤ) : Prop :=
  ∀ s' inst, M.fetch s pc = some (some inst, s') → AccesoEn A inst

/-- Related machines take the same turns. A turn that ends the burst leaves them clean. -/
theorem giro_relacionadas (h : Relacionadas M N R L A) (hR : R s t) (pendiente : Bool)
    (hA : TurnoEn M A s pc) :
    Option.Rel (fun x y => x.1 = y.1 ∧ R x.2 y.2 ∧ (x.1.sigue = none → L x.2 y.2))
      (giro M pendiente s pc) (giro N pendiente t pc) := by
  have hacceso : ∀ s' inst, (anotada M).fetch (s, []) pc = some (some inst, s') →
      AccesoEn A inst := by
    intro s' inst hfetch
    obtain ⟨⟨inst', s₁⟩, hr, heq⟩ := Option.map_eq_some_iff.mp hfetch
    cases heq
    exact hA s₁ inst hr
  have hrel : Option.Rel (MismaVuelta fun x y => R x.1 y.1 ∧ x.2 = y.2)
      (vuelta (anotada M) pendiente (s, []) pc) (vuelta (anotada N) pendiente (t, []) pc) :=
    vuelta_relacionadas (anotadas_relacionadas h) pendiente ⟨hR, rfl⟩ hacceso
  rw [giro, giro]
  rcases hx : vuelta (anotada M) pendiente (s, []) pc with _ | v <;>
    rcases hy : vuelta (anotada N) pendiente (t, []) pc with _ | v' <;> rw [hx, hy] at hrel
  · exact .none
  · cases hrel
  · cases hrel
  · obtain ⟨hvuelta⟩ := hrel
    cases hvuelta with
    | @sigue x y pc' nuevas hxy =>
      obtain ⟨s', l⟩ := x
      obtain ⟨t', l'⟩ := y
      obtain ⟨hR', hl⟩ := hxy
      dsimp only at hl
      subst hl
      exact .some ⟨rfl, hR', fun hno => by cases hno⟩
    | @termina x y r nuevas hxy =>
      obtain ⟨s', l⟩ := x
      obtain ⟨t', l'⟩ := y
      obtain ⟨hR', hl⟩ := hxy
      dsimp only at hl
      subst hl
      have hlimpia := h.limpiar s' t' hR'
      simp only [Option.bind_eq_bind, Option.bind_some]
      cases hx' : M.limpiar s' <;> cases hy' : N.limpiar t' <;> rw [hx', hy'] at hlimpia
      · exact .none
      · cases hlimpia
      · cases hlimpia
      · obtain ⟨hR'', hL⟩ := hlimpia
        exact .some ⟨rfl, hR'', fun _ => hL⟩

/-- What a machine keeps, whatever it is asked. -/
structure Mantiene (M : Maquina σ) (I : σ → Prop) : Prop where
  fetch : ∀ s pc r s', I s → M.fetch s pc = some (r, s') → I s'
  acceso : ∀ s acc r s', I s → M.acceso s acc = some (r, s') → I s'
  limpiar : ∀ s s', I s → M.limpiar s = some s' → I s'

variable {I : σ → Prop}

theorem mantiene_relacionada (h : Mantiene M I) :
    Relacionadas M M (fun s t => s = t ∧ I s) (fun _ _ => True) fun _ => True where
  fetch := by
    rintro s t pc ⟨rfl, hs⟩
    cases hf : M.fetch s pc with
    | none => exact .none
    | some r => exact .some ⟨rfl, rfl, h.fetch s pc r.1 r.2 hs hf⟩
  acceso := by
    rintro s t acc ⟨rfl, hs⟩ _
    cases ha : M.acceso s acc with
    | none => exact .none
    | some r => exact .some ⟨rfl, rfl, h.acceso s acc r.1 r.2 hs ha⟩
  limpiar := by
    rintro s t ⟨rfl, hs⟩
    cases hl : M.limpiar s with
    | none => exact .none
    | some s' => exact .some ⟨⟨rfl, h.limpiar s s' hs hl⟩, trivial⟩

/-- What the machine that writes its accesses down keeps holds of a turn and its log. -/
theorem giro_mantiene {I : σ × List Registro → Prop} (h : Mantiene (anotada M) I)
    (hs : I (s, [])) (hg : giro M pendiente s pc = some (g, s')) : I (s', g.accesos) := by
  have hrel : Option.Rel (MismaVuelta fun x y => x = y ∧ I x)
      (vuelta (anotada M) pendiente (s, []) pc) (vuelta (anotada M) pendiente (s, []) pc) :=
    vuelta_relacionadas (mantiene_relacionada h) pendiente ⟨rfl, hs⟩
      fun _ _ _ _ _ _ _ _ => trivial
  rw [giro] at hg
  obtain ⟨v, hv, hg⟩ := Option.bind_eq_some_iff.mp hg
  rw [hv] at hrel
  obtain ⟨hvuelta⟩ := hrel
  cases hvuelta with
  | sigue hxy =>
    cases hg
    exact hxy.2
  | @termina x y r nuevas hxy =>
    obtain ⟨s'', hlimpia, hg⟩ := Option.bind_eq_some_iff.mp hg
    cases hg
    refine h.limpiar x _ hxy.2 ?_
    change (M.limpiar x.1).map _ = _
    rw [hlimpia]
    rfl

end Reglas

end CpuGiros

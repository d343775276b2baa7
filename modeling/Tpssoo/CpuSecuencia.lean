import Tpssoo.CpuGiros

/-!
# Turns one after the other

A program that runs from its start, each turn at the program counter that the one before it
left. How its turns are split in bursts is not seen.
-/
namespace CpuSecuencia

open EnterosC Protocolo CpuAccesos CpuInstrucciones CpuCiclo CpuGiros

/-- The program counter that a turn leaves, in the burst or in its response. -/
def proximo (g : Giro) : ℤ :=
  match g.salida with
  | .sigue _ pc _ => pc
  | .termina _ r _ => r.programCounter

/-- The program counter after some turns. -/
def contador (pc : ℤ) (gs : List Giro) : ℤ := (gs.getLast?.map proximo).getD pc

/-- Each turn starts where the one before it ended. -/
def Encadenados : ℤ → List Giro → Prop
  | _, [] => True
  | pc, g :: gs => g.programCounter = pc ∧ Encadenados (proximo g) gs

/-- The turns of a machine from a program counter, with the interrupts that it is given. -/
def ejecutar {σ : Type} (M : Maquina σ) : σ → ℤ → List Bool → Option (List Giro × σ × ℤ)
  | s, pc, [] => some ([], s, pc)
  | s, pc, pendiente :: resto => do
    let (g, s₁) ← giro M pendiente s pc
    let (gs, s₂, pc') ← ejecutar M s₁ (proximo g) resto
    return (g :: gs, s₂, pc')

section Reglas

variable {σ : Type} {M : Maquina σ} {s s' : σ} {pc : ℤ} {g : Giro} {gs : List Giro}

@[simp] theorem contador_nil : contador pc [] = pc := rfl

@[simp] theorem contador_concat : contador pc (gs ++ [g]) = proximo g := by
  rw [contador, List.getLast?_concat]
  rfl

theorem contador_cons : contador pc (g :: gs) = contador (proximo g) gs := by
  cases gs with
  | nil => rfl
  | cons g' gs => rw [contador, contador, List.getLast?_cons_cons]; rfl

theorem proximo_de_sigue {pc' : ℤ} (h : g.sigue = some pc') : proximo g = pc' := by
  rw [Giro.sigue] at h
  rw [proximo]
  cases hsal : g.salida with
  | sigue u pc nuevas =>
    rw [hsal] at h
    exact Option.some.inj h
  | termina u r nuevas =>
    rw [hsal] at h
    cases h

theorem encadenados_concat :
    Encadenados pc (gs ++ [g]) ↔ Encadenados pc gs ∧ g.programCounter = contador pc gs := by
  induction gs generalizing pc with
  | nil => simp [Encadenados]
  | cons g' gs ih => rw [List.cons_append, Encadenados, Encadenados, ih, contador_cons, and_assoc]

/-- Turns in a chain are a run of their machine. -/
theorem ejecutar_de_girar (h : girar M s (gs.map Giro.entrada) = some (gs, s'))
    (hgs : Encadenados pc gs) :
    ejecutar M s pc (gs.map Giro.pendiente) = some (gs, s', contador pc gs) := by
  induction gs generalizing s pc with
  | nil =>
    cases h
    rfl
  | cons g gs ih =>
    obtain ⟨rfl, hgs⟩ := hgs
    rw [List.map_cons, Giro.entrada, girar] at h
    obtain ⟨⟨g', s₁⟩, hg, h⟩ := Option.bind_eq_some_iff.mp h
    obtain ⟨⟨gs', s₂⟩, hgs', h⟩ := Option.bind_eq_some_iff.mp h
    cases h
    rw [List.map_cons, ejecutar, hg]
    dsimp only [Option.bind_eq_bind, Option.bind_some]
    rw [ih hgs' hgs, contador_cons]
    rfl

end Reglas

end CpuSecuencia

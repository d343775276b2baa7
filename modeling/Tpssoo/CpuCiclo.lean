import Tpssoo.CpuInstrucciones
import Tpssoo.Tartamudeo

/-!
# Instruction cycle

`ciclo_instruccion` over a machine: what it takes of the CPU is a fetch, the accesses and
the final cleaning. The kernel takes the response and dispatches the process again from
the program counter in it. One step is one turn of the loop, with what follows when the
turn ends the burst.
-/
namespace CpuCiclo

open EnterosC Protocolo MemoriaEstado MemoriaInstrucciones CpuEstado CpuAccesos CpuInstrucciones
  Tartamudeo

/-- What reaches the kernel from a process. -/
inductive Syscall where
  | initProc (path : List Byte) (tamanio : ℤ)
  | io (dispositivo : List Byte) (duracion : ℤ)
  | dumpMemory
  | exit
  deriving DecidableEq, Repr

def opNoop : List Byte := [78, 79, 79, 80]
def opRead : List Byte := [82, 69, 65, 68]
def opWrite : List Byte := [87, 82, 73, 84, 69]
def opGoto : List Byte := [71, 79, 84, 79]
def opIo : List Byte := [73, 79]
def opExit : List Byte := [69, 88, 73, 84]
def opInitProc : List Byte := [73, 78, 73, 84, 95, 80, 82, 79, 67]
def opDumpMemory : List Byte := [68, 85, 77, 80, 95, 77, 69, 77, 79, 82, 89]

/-- The parts of a CPU that the cycle uses. -/
structure Maquina (σ : Type) where
  fetch : σ → ℤ → Option (Option InstruccionCpu × σ)
  acceso : σ → Acceso → Option (Resultado × σ)
  limpiar : σ → Option σ

/-- What `ejecutar_instruccion` returns and leaves: the program counter, the device and the
time of an IO, the syscalls already served by the kernel, the tables. -/
structure Ejecutada (σ : Type) where
  resultado : ResultadoEjecucion
  programCounter : ℤ
  io : Option (List Byte × ℤ)
  syscalls : List Syscall
  estado : σ

/-- The fields of `OP_RESPUESTA_EJECUCION`. -/
structure Respuesta where
  programCounter : ℤ
  motivo : ℕ
  io : Option (List Byte × ℤ)

/-- A process in the system: its CPU while it has one, the syscalls it has made, and the
motive with which the kernel ended it, or left it blocked for good. -/
structure Corrida (σ : Type) where
  estado : σ
  programCounter : ℤ
  syscalls : List Syscall
  fin : Option ℕ

section Instrucciones

variable {σ : Type} (M : Maquina σ) (s : σ) (pc : ℤ) (inst : InstruccionCpu)

/-- A parameter that is used without a test. -/
def textoParametro (i : ℕ) : Option (List Byte) := (inst.parametros[i]?).join.bind cadenaC

def resultadoAcceso : Resultado → ResultadoEjecucion
  | .hecho _ => .ejecucionOk
  | .segmentationFault => .segmentationFault

def hacerAcceso (acc : Acceso) : Option (Ejecutada σ) :=
  (M.acceso s acc).map fun r => ⟨resultadoAcceso r.1, pc, none, [], r.2⟩

/-- The access of a READ or WRITE, with its parameters. -/
def accesoDe (opcode : List Byte) : Option Acceso := do
  if opcode = opRead then
    return .read (atoi (← textoParametro inst 0)) (atoi (← textoParametro inst 1))
  else
    return .write (atoi (← textoParametro inst 0)) (← textoParametro inst 1)

def ejecutarInstruccion : Option (Ejecutada σ) := do
  -- a null parameter breaks the concatenation for the log
  if none ∈ inst.parametros then none
  else
    let opcode ← cadenaC inst.opcode
    if opcode = opNoop then return ⟨.ejecucionOk, pc, none, [], s⟩
    else if opcode = opRead ∨ opcode = opWrite then hacerAcceso M s pc (← accesoDe inst opcode)
    else if opcode = opGoto then
      return ⟨.ejecucionOk, atoi (← textoParametro inst 0), none, [], s⟩
    else if opcode = opIo then
      match (inst.parametros[0]?).join, (inst.parametros[1]?).join with
      | some dispositivo, some duracion =>
        return ⟨.procesoBloqueadoIo, aInt (pc + 1),
          some (← cadenaC dispositivo, atoi (← cadenaC duracion)), [], s⟩
      | _, _ => return ⟨.errorEjecucionFatal, pc, none, [], s⟩
    else if opcode = opExit then return ⟨.procesoFinalizadoExit, pc, none, [], s⟩
    else if opcode = opInitProc then
      return ⟨.ejecucionOk, pc, none,
        [.initProc (← textoParametro inst 0) (atoi (← textoParametro inst 1))], s⟩
    else if opcode = opDumpMemory then
      return ⟨.procesoBloqueadoDumpMemory, aInt (pc + 1), none, [], s⟩
    else return ⟨.errorEjecucionFatal, pc, none, [], s⟩

/-- An instruction that reaches the kernel while it executes, or whose response is lost when
another motive takes its place. -/
def Externa : Prop :=
  cadenaC inst.opcode = some opInitProc ∨ cadenaC inst.opcode = some opDumpMemory ∨
    (cadenaC inst.opcode = some opIo ∧ (inst.parametros[0]?).join.isSome ∧
      (inst.parametros[1]?).join.isSome)

instance : Decidable (Externa inst) := inferInstanceAs (Decidable (_ ∨ _))

/-- The shapes of an execution, the same for every machine and state: undefined, settled by
the instruction alone, or an access. -/
inductive Forma (pc : ℤ) (inst : InstruccionCpu) : Prop
  | indefinida (h : ∀ (σ : Type) (M : Maquina σ) (s : σ), ejecutarInstruccion M s pc inst = none)
  | propia (r : ResultadoEjecucion) (pc' : ℤ) (io : Option (List Byte × ℤ)) (nuevas : List Syscall)
      (h : ∀ (σ : Type) (M : Maquina σ) (s : σ),
        ejecutarInstruccion M s pc inst = some ⟨r, pc', io, nuevas, s⟩)
      (hint : ¬ Externa inst → nuevas = [] ∧
        (cadenaC inst.opcode = some opGoto ∧ r = .ejecucionOk ∨
          cadenaC inst.opcode ≠ some opGoto ∧ pc' = pc))
  | acceso (opcode : List Byte) (acc : Acceso) (hop : cadenaC inst.opcode = some opcode)
      (hacc : opcode = opRead ∨ opcode = opWrite) (hde : accesoDe inst opcode = some acc)
      (h : ∀ (σ : Type) (M : Maquina σ) (s : σ),
        ejecutarInstruccion M s pc inst = hacerAcceso M s pc acc)

theorem forma : Forma pc inst := by
  by_cases hnulo : none ∈ inst.parametros
  · exact .indefinida fun σ M s => if_pos hnulo
  cases hop : cadenaC inst.opcode with
  | none =>
    refine .indefinida fun σ M s => ?_
    rw [ejecutarInstruccion, if_neg hnulo, hop]
    rfl
  | some opcode =>
    have hpasos : ∀ (σ : Type) (M : Maquina σ) (s : σ), ejecutarInstruccion M s pc inst = _ :=
      fun σ M s => by rw [ejecutarInstruccion, if_neg hnulo, hop, Option.bind_eq_bind,
        Option.bind_some]
    by_cases h₁ : opcode = opNoop
    · subst h₁
      refine .propia .ejecucionOk pc none [] (fun σ M s => ?_) fun _ => ⟨rfl, Or.inr ⟨?_, rfl⟩⟩
      · rw [hpasos, if_pos rfl]
        rfl
      · rw [hop]
        decide
    by_cases h₂ : opcode = opRead ∨ opcode = opWrite
    · cases hde : accesoDe inst opcode with
      | none =>
        refine .indefinida fun σ M s => ?_
        rw [hpasos, if_neg h₁, if_pos h₂, hde]
        rfl
      | some acc =>
        refine .acceso opcode acc hop h₂ hde fun σ M s => ?_
        rw [hpasos, if_neg h₁, if_pos h₂, hde]
        rfl
    by_cases h₃ : opcode = opGoto
    · cases hdest : textoParametro inst 0 with
      | none =>
        refine .indefinida fun σ M s => ?_
        rw [hpasos, if_neg h₁, if_neg h₂, if_pos h₃, hdest]
        rfl
      | some destino =>
        refine .propia .ejecucionOk (atoi destino) none [] (fun σ M s => ?_) fun _ =>
          ⟨rfl, Or.inl ⟨h₃ ▸ hop, rfl⟩⟩
        rw [hpasos, if_neg h₁, if_neg h₂, if_pos h₃, hdest]
        rfl
    by_cases h₄ : opcode = opIo
    · subst h₄
      have hgoto : cadenaC inst.opcode ≠ some opGoto := by
        rw [hop]
        decide
      cases hdisp : (inst.parametros[0]?).join with
      | none =>
        refine .propia .errorEjecucionFatal pc none [] (fun σ M s => ?_) fun _ =>
          ⟨rfl, Or.inr ⟨hgoto, rfl⟩⟩
        rw [hpasos, if_neg h₁, if_neg h₂, if_neg h₃, if_pos rfl, hdisp]
        rfl
      | some dispositivo =>
        cases hdur : (inst.parametros[1]?).join with
        | none =>
          refine .propia .errorEjecucionFatal pc none [] (fun σ M s => ?_) fun _ =>
            ⟨rfl, Or.inr ⟨hgoto, rfl⟩⟩
          rw [hpasos, if_neg h₁, if_neg h₂, if_neg h₃, if_pos rfl, hdisp, hdur]
          rfl
        | some duracion =>
          have hext : Externa inst := Or.inr (Or.inr ⟨hop, by rw [hdisp]; rfl, by rw [hdur]; rfl⟩)
          cases hnom : cadenaC dispositivo with
          | none =>
            refine .indefinida fun σ M s => ?_
            rw [hpasos, if_neg h₁, if_neg h₂, if_neg h₃, if_pos rfl, hdisp, hdur]
            dsimp only
            rw [hnom]
            rfl
          | some nombre =>
            cases htiempo : cadenaC duracion with
            | none =>
              refine .indefinida fun σ M s => ?_
              rw [hpasos, if_neg h₁, if_neg h₂, if_neg h₃, if_pos rfl, hdisp, hdur]
              dsimp only
              rw [hnom, htiempo]
              rfl
            | some tiempo =>
              refine .propia .procesoBloqueadoIo (aInt (pc + 1)) (some (nombre, atoi tiempo)) []
                (fun σ M s => ?_) fun hint => absurd hext hint
              rw [hpasos, if_neg h₁, if_neg h₂, if_neg h₃, if_pos rfl, hdisp, hdur]
              dsimp only
              rw [hnom, htiempo]
              rfl
    by_cases h₅ : opcode = opExit
    · subst h₅
      refine .propia .procesoFinalizadoExit pc none [] (fun σ M s => ?_) fun _ =>
        ⟨rfl, Or.inr ⟨?_, rfl⟩⟩
      · rw [hpasos, if_neg h₁, if_neg h₂, if_neg h₃, if_neg h₄, if_pos rfl]
        rfl
      · rw [hop]
        decide
    by_cases h₆ : opcode = opInitProc
    · have hext : Externa inst := Or.inl (h₆ ▸ hop)
      cases hpath : textoParametro inst 0 with
      | none =>
        refine .indefinida fun σ M s => ?_
        rw [hpasos, if_neg h₁, if_neg h₂, if_neg h₃, if_neg h₄, if_neg h₅, if_pos h₆, hpath]
        rfl
      | some path =>
        cases htam : textoParametro inst 1 with
        | none =>
          refine .indefinida fun σ M s => ?_
          rw [hpasos, if_neg h₁, if_neg h₂, if_neg h₃, if_neg h₄, if_neg h₅, if_pos h₆, hpath, htam]
          rfl
        | some tamanio =>
          refine .propia .ejecucionOk pc none [.initProc path (atoi tamanio)] (fun σ M s => ?_)
            fun hint => absurd hext hint
          rw [hpasos, if_neg h₁, if_neg h₂, if_neg h₃, if_neg h₄, if_neg h₅, if_pos h₆, hpath, htam]
          rfl
    by_cases h₇ : opcode = opDumpMemory
    · have hext : Externa inst := Or.inr (Or.inl (h₇ ▸ hop))
      refine .propia .procesoBloqueadoDumpMemory (aInt (pc + 1)) none [] (fun σ M s => ?_)
        fun hint => absurd hext hint
      rw [hpasos, if_neg h₁, if_neg h₂, if_neg h₃, if_neg h₄, if_neg h₅, if_neg h₆, if_pos h₇]
      rfl
    · refine .propia .errorEjecucionFatal pc none [] (fun σ M s => ?_) fun _ =>
        ⟨rfl, Or.inr ⟨?_, rfl⟩⟩
      · rw [hpasos, if_neg h₁, if_neg h₂, if_neg h₃, if_neg h₄, if_neg h₅, if_neg h₆, if_neg h₇]
        rfl
      · rw [hop]
        exact fun heq => h₃ (Option.some.inj heq)

end Instrucciones

section Ciclo

variable {σ : Type} (M : Maquina σ)

/-- The switch on the result of an instruction; `none` lets the loop go on. -/
def motivoFinalizacion : ResultadoEjecucion → Option ℕ
  | .ejecucionOk => none
  | .procesoBloqueadoIo => some OpCode.procesoBloqueanteIo.codigo
  | .procesoBloqueadoDumpMemory => some OpCode.procesoBloqueanteDumpMemory.codigo
  | .procesoFinalizadoExit => some OpCode.exit.codigo
  | .errorEjecucionFatal => some ResultadoEjecucion.errorEjecucionFatal.codigo
  | .segmentationFault => some ResultadoEjecucion.segmentationFault.codigo
  | _ => some ResultadoEjecucion.errorEjecucionFatal.codigo

/-- How a turn of the loop ends. -/
inductive Vuelta (σ : Type) where
  | sigue (estado : σ) (programCounter : ℤ) (syscalls : List Syscall)
  | termina (estado : σ) (respuesta : Respuesta) (syscalls : List Syscall)

/-- After the instruction: the check of `INTERRUPCION_PENDIENTE`, which is `pendiente`, and
the program counter of a loop that goes on. -/
def cerrarVuelta (pendiente : Bool) (inst : InstruccionCpu) (e : Ejecutada σ) : Vuelta σ :=
  let motivo :=
    if pendiente then some OpCode.procesoInterrupcion.codigo else motivoFinalizacion e.resultado
  match motivo with
  | some motivo => .termina e.estado ⟨e.programCounter, motivo, e.io⟩ e.syscalls
  | none =>
    .sigue e.estado
      (if cadenaC inst.opcode = some opGoto then e.programCounter else aInt (e.programCounter + 1))
      e.syscalls

/-- One turn. A fetch that fails leaves the loop before the check. -/
def vuelta (pendiente : Bool) (s : σ) (pc : ℤ) : Option (Vuelta σ) := do
  match ← M.fetch s pc with
  | (none, s') => return .termina s' ⟨pc, ResultadoEjecucion.errorEjecucionFatal.codigo, none⟩ []
  | (some inst, s') => (ejecutarInstruccion M s' pc inst).map (cerrarVuelta pendiente inst)

/-- The switch of `recibir_y_manejar_respuesta_cpu`. `vuelve` tells whether a blocked
process comes back to READY after the syscalls it has made. -/
def recibirRespuesta (vuelve : List Syscall → Bool) (syscalls : List Syscall) (r : Respuesta) :
    Option (List Syscall × Option ℕ) :=
  if r.motivo = OpCode.exit.codigo then some (syscalls ++ [.exit], some r.motivo)
  else if r.motivo = OpCode.procesoBloqueanteIo.codigo then
    -- the response carries the name of the device
    r.io.map fun io => bloquear (syscalls ++ [.io io.1 io.2])
  else if r.motivo = OpCode.procesoBloqueanteDumpMemory.codigo then
    some (bloquear (syscalls ++ [.dumpMemory]))
  else if r.motivo = OpCode.procesoInterrupcion.codigo then some (syscalls, none)
  else some (syscalls, some r.motivo)
where
  bloquear (syscalls : List Syscall) : List Syscall × Option ℕ :=
    (syscalls, if vuelve syscalls then none else some r.motivo)

/-- What follows a turn; after one that ends the burst, the cleaning, the response, and the
next dispatch if there is one. -/
def cerrarTurno (vuelve : List Syscall → Bool) (syscalls : List Syscall) :
    Vuelta σ → Option (Corrida σ)
  | .sigue s pc nuevas => some ⟨s, pc, syscalls ++ nuevas, none⟩
  | .termina s r nuevas => do
    let s' ← M.limpiar s
    let (syscalls, fin) ← recibirRespuesta vuelve (syscalls ++ nuevas) r
    return ⟨s', r.programCounter, syscalls, fin⟩

def paso (vuelve : List Syscall → Bool) (pendiente : Bool) (c : Corrida σ) : Option (Corrida σ) :=
  if c.fin.isSome then some c
  else (vuelta M pendiente c.estado c.programCounter).bind (cerrarTurno M vuelve c.syscalls)

variable {M}

/-- An interrupted process goes back to READY as it is. -/
theorem cerrarTurno_interrupcion (vuelve : List Syscall → Bool) (syscalls : List Syscall)
    (inst : InstruccionCpu) (e : Ejecutada σ) :
    cerrarTurno M vuelve syscalls (cerrarVuelta true inst e) = (M.limpiar e.estado).map fun s =>
      ⟨s, e.programCounter, syscalls ++ e.syscalls, none⟩ := by
  have hvuelta : cerrarVuelta true inst e =
      .termina e.estado ⟨e.programCounter, OpCode.procesoInterrupcion.codigo, e.io⟩
        e.syscalls := rfl
  have hresp : ∀ nuevas, recibirRespuesta vuelve nuevas
      ⟨e.programCounter, OpCode.procesoInterrupcion.codigo, e.io⟩ = some (nuevas, none) :=
        fun _ => rfl
  rw [hvuelta, cerrarTurno, hresp]
  cases M.limpiar e.estado with
  | none => rfl
  | some s => rfl

theorem cerrarTurno_salto (vuelve : List Syscall → Bool) (syscalls : List Syscall)
    {inst : InstruccionCpu} {e : Ejecutada σ} (hgoto : cadenaC inst.opcode = some opGoto)
    (hok : e.resultado = .ejecucionOk) :
    cerrarTurno M vuelve syscalls (cerrarVuelta false inst e) =
      some ⟨e.estado, e.programCounter, syscalls ++ e.syscalls, none⟩ := by
  have hvuelta : cerrarVuelta false inst e = .sigue e.estado e.programCounter e.syscalls := by
    rw [cerrarVuelta, hok, if_pos hgoto]
    rfl
  rw [hvuelta, cerrarTurno]

end Ciclo

section Relacion

/-!
The cycle uses a machine only through its parts: related parts give related steps.
-/

variable {σ τ : Type} {M : Maquina σ} {N : Maquina τ} {R L : σ → τ → Prop} {A : Acceso → Prop}
  {vuelve : List Syscall → Bool}

/-- Parts of two machines that keep `R` between their states, for accesses in `A`; a
cleaning establishes `L` too. -/
structure Relacionadas (M : Maquina σ) (N : Maquina τ) (R L : σ → τ → Prop) (A : Acceso → Prop) :
    Prop where
  fetch : ∀ s t pc, R s t →
    Option.Rel (fun x y => x.1 = y.1 ∧ R x.2 y.2) (M.fetch s pc) (N.fetch t pc)
  acceso : ∀ s t acc, R s t → A acc →
    Option.Rel (fun x y => x.1 = y.1 ∧ R x.2 y.2) (M.acceso s acc) (N.acceso t acc)
  limpiar : ∀ s t, R s t → Option.Rel (fun s' t' => R s' t' ∧ L s' t') (M.limpiar s) (N.limpiar t)

structure MismaEjecucion (R : σ → τ → Prop) (e : Ejecutada σ) (e' : Ejecutada τ) : Prop where
  resultado : e.resultado = e'.resultado
  programCounter : e.programCounter = e'.programCounter
  io : e.io = e'.io
  syscalls : e.syscalls = e'.syscalls
  estado : R e.estado e'.estado

/-- The accesses that an instruction can make are in `A`. -/
def AccesoEn (A : Acceso → Prop) (inst : InstruccionCpu) : Prop :=
  ∀ opcode ∈ cadenaC inst.opcode, opcode = opRead ∨ opcode = opWrite →
    ∀ acc ∈ accesoDe inst opcode, A acc

instance [DecidablePred A] (inst : InstruccionCpu) : Decidable (AccesoEn A inst) :=
  inferInstanceAs (Decidable (∀ opcode ∈ cadenaC inst.opcode, opcode = opRead ∨ opcode = opWrite →
    ∀ acc ∈ accesoDe inst opcode, A acc))

theorem ejecutar_relacionadas (h : Relacionadas M N R L A) {s : σ} {t : τ} (hR : R s t) (pc : ℤ)
    {inst : InstruccionCpu} (hA : AccesoEn A inst) :
    Option.Rel (MismaEjecucion R) (ejecutarInstruccion M s pc inst)
      (ejecutarInstruccion N t pc inst) := by
  cases forma pc inst with
  | indefinida hno =>
    rw [hno, hno]
    exact .none
  | propia r pc' io nuevas hsi _ =>
    rw [hsi, hsi]
    exact .some ⟨rfl, rfl, rfl, rfl, hR⟩
  | acceso opcode acc hop hacc hde heq =>
    have hrel := h.acceso s t acc hR (hA opcode hop hacc acc hde)
    rw [heq, heq, hacerAcceso, hacerAcceso]
    cases hx : M.acceso s acc <;> cases hy : N.acceso t acc <;> rw [hx, hy] at hrel
    · exact .none
    · cases hrel
    · cases hrel
    · obtain ⟨hr, hR'⟩ := hrel
      exact .some ⟨congrArg resultadoAcceso hr, rfl, rfl, rfl, hR'⟩

inductive MismaVuelta (R : σ → τ → Prop) : Vuelta σ → Vuelta τ → Prop
  | sigue {s : σ} {t : τ} {pc : ℤ} {nuevas : List Syscall} (h : R s t) :
      MismaVuelta R (.sigue s pc nuevas) (.sigue t pc nuevas)
  | termina {s : σ} {t : τ} {r : Respuesta} {nuevas : List Syscall} (h : R s t) :
      MismaVuelta R (.termina s r nuevas) (.termina t r nuevas)

/-- Two processes at the same point, with states in `R`, and in `L` once they ended. -/
structure MismaCorrida (R L : σ → τ → Prop) (c : Corrida σ) (d : Corrida τ) : Prop where
  programCounter : c.programCounter = d.programCounter
  syscalls : c.syscalls = d.syscalls
  fin : c.fin = d.fin
  estado : R c.estado d.estado
  limpio : c.fin.isSome → L c.estado d.estado

theorem cerrarVuelta_relacionadas (pendiente : Bool) (inst : InstruccionCpu) {e : Ejecutada σ}
    {e' : Ejecutada τ} (h : MismaEjecucion R e e') :
    MismaVuelta R (cerrarVuelta pendiente inst e) (cerrarVuelta pendiente inst e') := by
  obtain ⟨hres, hpc, hio, hsys, hR⟩ := h
  rw [cerrarVuelta, cerrarVuelta, hres, hpc, hio, hsys]
  cases if pendiente then some OpCode.procesoInterrupcion.codigo
    else motivoFinalizacion e'.resultado with
  | none => exact .sigue hR
  | some motivo => exact .termina hR

theorem cerrarTurno_relacionadas (h : Relacionadas M N R L A) (syscalls : List Syscall)
    {x : Vuelta σ}
    {y : Vuelta τ} (hxy : MismaVuelta R x y) :
    Option.Rel (MismaCorrida R L) (cerrarTurno M vuelve syscalls x)
      (cerrarTurno N vuelve syscalls y) := by
  cases hxy with
  | sigue hR => exact .some ⟨rfl, rfl, rfl, hR, fun hno => by cases hno⟩
  | @termina s t r nuevas hR =>
    have hlimpia := h.limpiar s t hR
    rw [cerrarTurno, cerrarTurno]
    rcases hx : M.limpiar s with _ | s' <;> rcases hy : N.limpiar t with _ | t' <;>
      rw [hx, hy] at hlimpia
    · exact .none
    · cases hlimpia
    · cases hlimpia
    · obtain ⟨hR', hL⟩ := hlimpia
      simp only [Option.bind_eq_bind, Option.bind_some]
      cases recibirRespuesta vuelve (syscalls ++ nuevas) r with
      | none => exact .none
      | some x => exact .some ⟨rfl, rfl, rfl, hR', fun _ => hL⟩

theorem vuelta_relacionadas (h : Relacionadas M N R L A) (pendiente : Bool) {s : σ} {t : τ}
    (hR : R s t) {pc : ℤ} (hA : ∀ s' inst, M.fetch s pc = some (some inst, s') → AccesoEn A inst) :
    Option.Rel (MismaVuelta R) (vuelta M pendiente s pc) (vuelta N pendiente t pc) := by
  have hfetch := h.fetch s t pc hR
  rw [vuelta, vuelta]
  rcases hx : M.fetch s pc with _ | ⟨inst, s'⟩ <;> rcases hy : N.fetch t pc with _ | ⟨inst', t'⟩ <;>
    rw [hx, hy] at hfetch
  · exact .none
  · cases hfetch
  · cases hfetch
  · obtain ⟨hinst, hR'⟩ := hfetch
    dsimp only at hinst hR'
    subst hinst
    cases inst with
    | none => exact .some (.termina hR')
    | some inst =>
      have hrel := ejecutar_relacionadas h hR' pc (hA s' inst hx)
      simp only [Option.bind_eq_bind, Option.bind_some]
      rcases hx' : ejecutarInstruccion M s' pc inst with _ | e <;>
        rcases hy' : ejecutarInstruccion N t' pc inst with _ | e' <;> rw [hx', hy'] at hrel
      · exact .none
      · cases hrel
      · cases hrel
      · obtain ⟨he⟩ := hrel
        exact .some (cerrarVuelta_relacionadas pendiente inst he)

theorem paso_relacionadas (h : Relacionadas M N R L A) (pendiente : Bool) {c : Corrida σ}
    {d : Corrida τ} (hcd : MismaCorrida R L c d) (hA : ¬ c.fin.isSome → ∀ s' inst,
      M.fetch c.estado c.programCounter = some (some inst, s') → AccesoEn A inst) :
    Option.Rel (MismaCorrida R L) (paso M vuelve pendiente c) (paso N vuelve pendiente d) := by
  by_cases hfin : c.fin.isSome
  · rw [paso, paso, if_pos hfin, if_pos (hcd.fin ▸ hfin)]
    exact .some hcd
  · rw [paso, paso, if_neg hfin, if_neg (hcd.fin ▸ hfin), ← hcd.programCounter, ← hcd.syscalls]
    have hrel := vuelta_relacionadas h pendiente hcd.estado (hA hfin)
    rcases hx : vuelta M pendiente c.estado c.programCounter with _ | v <;>
      rcases hy : vuelta N pendiente d.estado c.programCounter with _ | v' <;> rw [hx, hy] at hrel
    · exact .none
    · cases hrel
    · cases hrel
    · obtain ⟨hvuelta⟩ := hrel
      exact cerrarTurno_relacionadas h c.syscalls hvuelta

end Relacion

end CpuCiclo

import Tpssoo.CpuRafagas

/-!
# Fetch

The reply to a request for an instruction as `fetch` takes it apart, and the C strings
and integers in its parameters. The inner `none` is the null pointer that `fetch` returns.
-/
namespace CpuInstrucciones

open EnterosC Protocolo RangosBytes MemoriaEstado MemoriaInstrucciones MemoriaPeticiones
  MemoriaFilas MemoriaEfectos CpuEstado CpuMemoria

variable {cfg : Config}

/-- An instruction as `fetch` builds it: the bytes of the opcode, and as many pointers as
parameters were announced. -/
structure InstruccionCpu where
  opcode : List Byte
  parametros : List (Option (List Byte))
  deriving DecidableEq, Repr

/-- `largo` bytes at `desde`, when the test on the int sum lets them through. -/
def leerTrozo (xs : List Byte) (desde : ℕ) (largo : ℤ) : Option (Option (List Byte)) :=
  if (xs.length : ℤ) < aInt (desde + largo) then some none
  else if 0 ≤ largo ∧ (desde : ℤ) + largo ≤ xs.length then
    some (some (leerRango xs desde largo.toNat))
  else none

/-- The loop over the parameters, from an offset. -/
def leerParametros (xs : List Byte) : ℕ → ℕ → Option (Option (List (Option (List Byte))))
  | 0, _ => some (some [])
  | n + 1, desde =>
    match leerInt xs desde with
    | none => some none
    | some largo =>
      if 0 < largo then do
        match ← leerTrozo xs (desde + 4) largo with
        | none => return none
        | some bytes =>
          return (← leerParametros xs n (desde + 4 + largo.toNat)).map (some bytes :: ·)
      else do
        return (← leerParametros xs n (desde + 4)).map (none :: ·)

/-- `destruir_instruccion` on the error paths of `fetch`. It frees as many pointers of the array
as `cantidad_parametros` says, which is what `malloc` left there until it has been read. -/
def destruirInstruccion : Option ℤ → Option Unit
  | none => none
  | some cantidadParametros =>
    if (MAX_PARAMETROS : ℤ) < cantidadParametros then none else some ()

/-- The payload of `INSTRUCCION_OK`. A negative count of parameters makes the loop that
clears the unused ones write before the array. -/
def deserializarInstruccion (xs : List Byte) : Option (Option InstruccionCpu) :=
  match leerInt xs 0 with
  | none => (destruirInstruccion none).map fun _ => none
  | some opcodeLength => do
    match ← leerTrozo xs 4 opcodeLength with
    | none => (destruirInstruccion none).map fun _ => none
    | some opcode =>
      match leerInt xs (4 + opcodeLength.toNat) with
      | none => (destruirInstruccion none).map fun _ => none
      | some cantidadParametros =>
        if (MAX_PARAMETROS : ℤ) < cantidadParametros then
          (destruirInstruccion (some cantidadParametros)).map fun _ => none
        else if cantidadParametros < 0 then none
        else
          match ← leerParametros xs cantidadParametros.toNat (8 + opcodeLength.toNat) with
          | none => (destruirInstruccion (some cantidadParametros)).map fun _ => none
          | some parametros => return some ⟨opcode, parametros⟩

/-- Every reply other than `INSTRUCCION_OK` gives a null pointer. -/
def fetch (cpu : Cpu) (m : Memoria cfg) (pid pc : ℤ) : Option
    (Option InstruccionCpu × Memoria cfg) := do
  let (envios, m') ← atenderPostHandshake cpu.entorno m (.pedirInstrucciones pid pc)
  match envios with
  | [.paquete p] =>
    if p.codigoOperacion = OpCode.instruccionOk.codigo then
      return (← deserializarInstruccion p.buffer, m')
    else return (none, m')
  | _ => none

section Cadenas

/-- A buffer read as a C string; without a terminator the reads go past its end. -/
def cadenaC (xs : List Byte) : Option (List Byte) :=
  if (0 : Byte) ∈ xs then some (cadena xs) else none

def esBlanco (b : Byte) : Bool := b == 32 || (9 ≤ b && b ≤ 13)

def esDigito (b : Byte) : Bool := 48 ≤ b && b ≤ 57

def valorDigitos (xs : List Byte) : ℕ :=
  (xs.takeWhile esDigito).foldl (fun n b => 10 * n + (b.toNat - 48)) 0

/-- `(int) strtol(s, NULL, 10)`, with the saturation of a 64-bit `long`. -/
def atoi (xs : List Byte) : ℤ :=
  match xs.dropWhile esBlanco with
  | 45 :: ys => aInt (max (-2 ^ 63) (-(valorDigitos ys)))
  | 43 :: ys => aInt (min (2 ^ 63 - 1) (valorDigitos ys))
  | ys => aInt (min (2 ^ 63 - 1) (valorDigitos ys))

end Cadenas

section Programa

/-- A token as the CPU receives it. -/
def conTerminador (tk : Token) : List Byte := tk.1 ++ [0]

/-- An instruction of the program as the CPU receives it. -/
def alCpu (inst : Instruccion) : InstruccionCpu :=
  ⟨conTerminador inst.opcode, inst.parametros.map fun tk => some (conTerminador tk)⟩

/-- A string on the wire: its length with the terminator, and its bytes. -/
def trama (tk : Token) : List Byte := bytesInt ((conTerminador tk).length) ++ conTerminador tk

theorem length_conTerminador (tk : Token) :
    0 < (conTerminador tk).length ∧ (conTerminador tk).length ≤ 300 := by
  have hlargo := tk.2.2.1
  rw [conTerminador, List.length_append, List.length_singleton]
  omega

theorem buffer_agregarCadena (p : Paquete) (tk : Token) :
    (agregarCadena p tk.1).buffer = p.buffer ++ trama tk := by
  simp [agregarCadena, agregarAPaquete, trama, conTerminador]

theorem buffer_parametros (tks : List Token) (p : Paquete) :
    (tks.foldl (fun p x => agregarCadena p x.1) p).buffer = p.buffer ++ tks.flatMap trama ∧
      (tks.foldl (fun p x => agregarCadena p x.1) p).codigoOperacion = p.codigoOperacion := by
  induction tks generalizing p with
  | nil => simp
  | cons tk tks ih =>
    obtain ⟨hbuf, hcod⟩ := ih (agregarCadena p tk.1)
    rw [List.foldl_cons, hbuf, hcod, buffer_agregarCadena, List.flatMap_cons, List.append_assoc]
    exact ⟨rfl, rfl⟩

theorem leerTrozo_exacto (antes xs despues : List Byte)
    (hcorto : EsInt ((antes.length : ℤ) + xs.length)) :
    leerTrozo (antes ++ xs ++ despues) antes.length xs.length = some (some xs) := by
  have hlargo : (antes ++ xs ++ despues).length = antes.length + xs.length + despues.length := by
    rw [List.length_append, List.length_append]
  have htrozo : leerRango (antes ++ xs ++ despues) antes.length xs.length = xs := by
    rw [leerRango, List.append_assoc, List.drop_left]
    exact List.take_left' rfl
  rw [leerTrozo, aInt_eq hcorto, if_neg (by omega), if_pos (by omega), Int.toNat_natCast, htrozo]

/-- A string is read back where it was put. -/
theorem leer_trama (antes despues : List Byte) (tk : Token) (hcorto : antes.length ≤ 2000) :
    leerInt (antes ++ trama tk ++ despues) antes.length = some ((conTerminador tk).length : ℤ) ∧
      leerTrozo (antes ++ trama tk ++ despues) (antes.length + 4) (conTerminador tk).length =
        some (some (conTerminador tk)) := by
  obtain ⟨-, hmax⟩ := length_conTerminador tk
  constructor
  · have h := leerInt_bytesInt antes (conTerminador tk ++ despues) (conTerminador tk).length
    rw [aInt_eq ⟨by omega, by omega⟩] at h
    simpa [trama] using h
  · have h := leerTrozo_exacto (antes ++ bytesInt ((conTerminador tk).length)) (conTerminador tk)
      despues (by rw [List.length_append, length_bytesInt]; exact ⟨by omega, by omega⟩)
    simpa [trama] using h

theorem length_trama (tk : Token) : (trama tk).length = 4 + (conTerminador tk).length := by
  rw [trama, List.length_append, length_bytesInt]

theorem leerParametros_tramas (tks : List Token) (antes : List Byte)
    (hcorto : antes.length + 304 * tks.length ≤ 2000) :
    leerParametros (antes ++ tks.flatMap trama) tks.length antes.length =
      some (some (tks.map fun tk => some (conTerminador tk))) := by
  induction tks generalizing antes with
  | nil => rfl
  | cons tk tks ih =>
    obtain ⟨hmin, hmax⟩ := length_conTerminador tk
    rw [List.length_cons] at hcorto
    obtain ⟨hint, htrozo⟩ := leer_trama antes (tks.flatMap trama) tk (by omega)
    have hresto := ih (antes ++ trama tk) (by rw [List.length_append, length_trama]; omega)
    rw [List.length_append, length_trama, ← Nat.add_assoc] at hresto
    rw [List.flatMap_cons, ← List.append_assoc, List.length_cons, leerParametros, hint]
    dsimp only
    rw [if_pos (Int.natCast_pos.mpr hmin), htrozo, Option.bind_eq_bind, Option.bind_some]
    dsimp only
    rw [Int.toNat_natCast, hresto]
    rfl

/-- The CPU reads back the instruction that Memoria sent. -/
theorem deserializar_paquete (inst : Instruccion) :
    deserializarInstruccion (paqueteInstruccion inst).buffer = some (some (alCpu inst)) := by
  obtain ⟨hmin, hmax⟩ := length_conTerminador inst.opcode
  have hcant := inst.cantidad_le
  rw [MAX_PARAMETROS] at hcant
  let cabecera := trama inst.opcode ++ bytesInt inst.parametros.length
  have hbuf : (paqueteInstruccion inst).buffer = cabecera ++ inst.parametros.flatMap trama := by
    rw [paqueteInstruccion, (buffer_parametros _ _).1, agregarAPaquete, buffer_agregarCadena]
    rfl
  have hlargo : cabecera.length = 8 + (conTerminador inst.opcode).length := by
    change (trama inst.opcode ++ bytesInt inst.parametros.length).length = _
    rw [List.length_append, length_trama, length_bytesInt]
    omega
  obtain ⟨hint, htrozo⟩ := leer_trama []
    (bytesInt inst.parametros.length ++ inst.parametros.flatMap trama) inst.opcode (Nat.zero_le _)
  have hcantidad := leerInt_bytesInt (trama inst.opcode) (inst.parametros.flatMap trama)
    inst.parametros.length
  have hparametros := leerParametros_tramas inst.parametros cabecera (by omega)
  have heq : (paqueteInstruccion inst).buffer =
      [] ++ trama inst.opcode ++ (bytesInt inst.parametros.length ++
        inst.parametros.flatMap trama) := by
    rw [hbuf]
    simp [cabecera]
  rw [← heq, List.length_nil] at hint htrozo
  rw [← hbuf, hlargo] at hparametros
  have heq' : (paqueteInstruccion inst).buffer =
      trama inst.opcode ++ bytesInt inst.parametros.length ++ inst.parametros.flatMap trama := hbuf
  rw [← heq', length_trama, aInt_eq ⟨by omega, by omega⟩] at hcantidad
  rw [deserializarInstruccion, hint]
  dsimp only
  rw [htrozo, Option.bind_eq_bind, Option.bind_some]
  dsimp only
  rw [Int.toNat_natCast, hcantidad]
  dsimp only
  rw [if_neg (by rw [MAX_PARAMETROS]; omega), if_neg (by omega), Int.toNat_natCast, hparametros]
  rfl

end Programa

section Fetch

variable {m : Memoria cfg} {pid pc : ℤ} {q : Proceso cfg}

/-- The instruction at a program counter. -/
def instruccionEn (programa : List Instruccion) (pc : ℤ) : Option Instruccion :=
  if 0 ≤ pc then programa[pc.toNat]? else none

/-- A fetch gives the instruction of the program, or null past its ends. -/
theorem fetch_programa (cpu : Cpu) (hn : (m.diccionarioProcesos.map Proceso.pid).Nodup)
    (hq : buscarProceso m.diccionarioProcesos pid = some q) (pc : ℤ) :
    ∃ m', fetch cpu m pid pc = some ((instruccionEn q.instrucciones pc).map alCpu, m') ∧
      Quieta m m' := by
  have hquieta : ∀ (envios : List Envio) (m' : Memoria cfg),
      enviarInstruccionSegunPidYPc m pid pc = some (envios, m') → Quieta m m' := by
    intro envios m' h
    obtain ⟨ha, hp, -⟩ := instruccion_quieta hn h
    exact ⟨ha, hp⟩
  rw [fetch, atenderPostHandshake]
  cases hinst : instruccionEn q.instrucciones pc with
  | none =>
    rw [instruccionEn] at hinst
    have henvia := hquieta
    simp only [enviarInstruccionSegunPidYPc, hq, hinst] at henvia ⊢
    exact ⟨_, rfl, henvia _ _ rfl⟩
  | some inst =>
    rw [instruccionEn] at hinst
    have henvia := hquieta
    simp only [enviarInstruccionSegunPidYPc, hq, hinst] at henvia ⊢
    have hcod : (paqueteInstruccion inst).codigoOperacion = OpCode.instruccionOk.codigo := by
      rw [paqueteInstruccion, (buffer_parametros _ _).2]
      rfl
    refine ⟨_, ?_, henvia _ _ rfl⟩
    rw [Option.bind_eq_bind, Option.bind_some]
    dsimp only
    rw [if_pos hcod, deserializar_paquete]
    rfl

end Fetch

end CpuInstrucciones

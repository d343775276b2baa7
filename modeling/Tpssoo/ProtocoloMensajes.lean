import Tpssoo.LectorBytes
import Tpssoo.CpuInstrucciones
import Tpssoo.KernelEstado

/-!
# Messages between the modules

Six payloads, each written by one program and taken apart by another: the PCB, an
instruction, the two `INIT_PROC`, the IO request and its completion. Lengths are `int`s
computed from `strlen`; the two ends agree on every message that fits in one.
-/
namespace ProtocoloMensajes

open EnterosC Protocolo LectorBytes MemoriaEstado MemoriaInstrucciones MemoriaPeticiones
  CpuInstrucciones
open KernelEstado (Estado)

section Campos

abbrev EnteroC := {x : ℤ // EsInt x}

/-- A C string, without its terminator. -/
abbrev CadenaC := {xs : List Byte // (0 : Byte) ∉ xs}

/-- The string as it stands in memory. -/
def bloque (s : CadenaC) : List Byte := s.1 ++ [0]

/-- `strlen` and `strlen + 1` in an `int`. -/
def largo (s : CadenaC) : ℤ := aInt s.1.length

def largoConFin (s : CadenaC) : ℤ := aInt (s.1.length + 1)

def codigoEstado (e : Estado) : ℤ := e.ctorIdx

theorem esInt_codigoEstado (e : Estado) : EsInt (codigoEstado e) := by
  cases e <;> decide

theorem esInt_cantidad {α : Type} {l : List α} (h : l.length ≤ MAX_PARAMETROS) :
    EsInt (l.length : ℤ) := by
  unfold MAX_PARAMETROS at h
  constructor <;> omega

theorem cadenaC_bloque (s : CadenaC) (despues : List Byte) :
    cadenaC (bloque s ++ despues) = some s.1 := by
  have hsin : s.1.takeWhile (fun b => b ≠ 0) = s.1 := by
    rw [List.takeWhile_eq_self_iff]
    intro b hb
    have hne : b ≠ 0 := fun h => s.2 (h ▸ hb)
    simpa using hne
  have hmem : (0 : Byte) ∈ bloque s ++ despues := by simp [bloque]
  rw [cadenaC, if_pos hmem, cadena, bloque, List.append_assoc, List.takeWhile_append, hsin,
    if_pos rfl]
  simp

end Campos

section Envio

/-- `agregar_a_paquete` with its `tamanio` and the bytes that `valor` points to. A negative
`tamanio` is undefined, and so is a `size` that overflows. -/
def agregar (p : Paquete) (trozo : ℤ × List Byte) : Option Paquete :=
  if 0 ≤ trozo.1 ∧ EsInt (p.buffer.length + trozo.1) then
    some (agregarAPaquete p (trozo.2.take trozo.1.toNat))
  else none

/-- `crear_paquete` and the calls to `agregar_a_paquete` that follow it. -/
def armar (codigo : OpCode) (trozos : List (ℤ × List Byte)) : Option Paquete :=
  trozos.foldlM agregar (crearPaquete codigo.codigo)

def deInt (x : ℤ) : ℤ × List Byte := (4, bytesInt x)

def deDouble (d : UInt64) : ℤ × List Byte := (8, bytesDoble d)

def enviarPcbPorSocket (pid programCounter tamanioProceso : ℤ) (estado : Estado) (path : CadenaC)
    (estimacionRafaga rafagaRealAnterior : UInt64) : Option Paquete :=
  armar .opPcb
    [deInt pid, deInt programCounter, deInt tamanioProceso, deInt (codigoEstado estado),
      deInt (largoConFin path), (largoConFin path, bloque path),
      deDouble estimacionRafaga, deDouble rafagaRealAnterior]

/-- A parameter of an instruction; a null pointer is sent as a length of zero. -/
def deParametro : Option CadenaC → List (ℤ × List Byte)
  | some s => [deInt (largoConFin s), (largoConFin s, bloque s)]
  | none => [deInt 0]

/-- The packet of `enviar_instruccion_segun_pid_y_pc` for an instruction it finds. -/
def enviarInstruccion (opcode : CadenaC) (parametros : List (Option CadenaC)) : Option Paquete :=
  armar .instruccionOk
    ([deInt (largoConFin opcode), (largoConFin opcode, bloque opcode), deInt parametros.length] ++
      parametros.flatMap deParametro)

/-- The CPU to the kernel, without the terminator. -/
def manejarInstruccionInitProceso (path : CadenaC) (tamanioProceso : ℤ) : Option Paquete :=
  armar .initProc [deInt (largo path), (largo path, bloque path), deInt tamanioProceso]

/-- The kernel to Memoria, with it. -/
def solicitarAdmisionAMemoria (pid tamanioProceso : ℤ) (path : CadenaC) : Option Paquete :=
  armar .initProc
    [deInt pid, deInt tamanioProceso, deInt (largoConFin path), (largoConFin path, bloque path)]

def despacharIoSiEsPosible (nombre : CadenaC) (pid tiempo : ℤ) : Option Paquete :=
  armar .io [deInt (largoConFin nombre), (largoConFin nombre, bloque nombre), deInt pid,
    deInt tiempo]

def enviarFinalizacion (nombre : CadenaC) (pid : ℤ) : Option Paquete :=
  armar .procesoDesbloqueado
    [deInt (largo nombre), (largo nombre, bloque nombre), deInt pid,
      deInt OpCode.finalizoIo.codigo]

end Envio

section Recepcion

structure PcbRecibido where
  pid : ℤ
  programCounter : ℤ
  tamanioProceso : ℤ
  estado : ℤ
  pathPseudocodigo : List Byte
  estimacionRafaga : UInt64
  rafagaRealAnterior : UInt64
  deriving DecidableEq, Repr

def recibirPcb : Lector PcbRecibido := do
  let pid ← entero
  let programCounter ← entero
  let tamanioProceso ← entero
  let estado ← entero
  let pathLen ← entero
  let pathPseudocodigo ← bytes pathLen
  let estimacionRafaga ← doble
  let rafagaRealAnterior ← doble
  return ⟨pid, programCounter, tamanioProceso, estado, pathPseudocodigo, estimacionRafaga,
    rafagaRealAnterior⟩

/-- A block that passed the test of `fetch` on the size of the buffer. -/
def trozo (largo : ℤ) : Lector (List Byte) := fun xs desde =>
  match leerTrozo xs desde largo with
  | some (some bytes) => some (bytes, desde + largo.toNat)
  | _ => none

/-- The pointer is null when the length is not positive. -/
def punteroParametro (paramLen : ℤ) : Lector (Option (List Byte)) :=
  if 0 < paramLen then do
    let bytes ← trozo paramLen
    return some bytes
  else return none

def parametro : Lector (Option (List Byte)) := do
  let paramLen ← entero
  punteroParametro paramLen

def parametros : ℕ → Lector (List (Option (List Byte)))
  | 0 => return []
  | n + 1 => do
    let primero ← parametro
    let resto ← parametros n
    return primero :: resto

def cuerpoInstruccion (opcode : List Byte) (cantidadParametros : ℤ) : Lector InstruccionCpu :=
  if 0 ≤ cantidadParametros ∧ cantidadParametros ≤ MAX_PARAMETROS then do
    let ps ← parametros cantidadParametros.toNat
    return ⟨opcode, ps⟩
  else failure

/-- The successful path of `fetch`, with the offset that the other model of it does not
return. -/
def recibirInstruccion : Lector InstruccionCpu := do
  let opcodeLength ← entero
  let opcode ← trozo opcodeLength
  let cantidadParametros ← entero
  cuerpoInstruccion opcode cantidadParametros

/-- The kernel's case `INIT_PROC`: the terminator is added after the copy. -/
def recibirInitProc : Lector (List Byte × ℤ) := do
  let longitudPath ← entero
  let path ← bytes longitudPath
  let tamanioNuevoProceso ← entero
  return (path ++ [0], tamanioNuevoProceso)

/-- Memoria's case `INIT_PROC`. -/
def recibirInitProcMemoria : Lector (ℤ × ℤ × List Byte) := do
  let pidProceso ← entero
  let tamanioProceso ← entero
  let largoPath ← entero
  let path ← bytes largoPath
  return (pidProceso, tamanioProceso, path ++ [0])

def escucharSolicitudesIo : Lector (List Byte × ℤ × ℤ) := do
  let lenNombre ← entero
  let nombre ← bytes lenNombre
  let pid ← entero
  let tiempo ← entero
  return (nombre ++ [0], pid, tiempo)

/-- The name is skipped. -/
def hiloEscuchaIo : Lector (ℤ × ℤ) := do
  let lenNombre ← entero
  saltar lenNombre
  let pidFinalizado ← entero
  let tipoMensaje ← entero
  return (pidFinalizado, tipoMensaje)

end Recepcion

section Armado

variable {t : ℤ × List Byte} {u : List Byte} {ts : List (ℤ × List Byte)} {us : List (List Byte)}
  {c : CadenaC} {codigo : OpCode}

/-- A call that copies exactly these bytes. -/
def Copia (t : ℤ × List Byte) (u : List Byte) : Prop := t.1 = u.length ∧ u <+: t.2

theorem copia_de {n : ℤ} {v : List Byte} (hlargo : n = u.length) (hprefijo : u <+: v) :
    Copia (n, v) u := ⟨hlargo, hprefijo⟩

theorem copia_int (x : ℤ) : Copia (deInt x) (bytesInt x) :=
  copia_de (by rw [length_bytesInt]; rfl) List.prefix_rfl

theorem copia_double (d : UInt64) : Copia (deDouble d) (bytesDoble d) :=
  copia_de (by rw [length_bytesDoble]; rfl) List.prefix_rfl

theorem largoConFin_eq (h : EsInt ((bloque c).length : ℤ)) : largoConFin c = (bloque c).length := by
  rw [bloque, List.length_append, List.length_singleton, Int.natCast_add] at h ⊢
  exact aInt_eq h

theorem largo_eq (h : EsInt (c.1.length : ℤ)) : largo c = c.1.length := aInt_eq h

theorem copia_bloque (h : EsInt ((bloque c).length : ℤ)) :
    Copia (largoConFin c, bloque c) (bloque c) :=
  copia_de (largoConFin_eq h) List.prefix_rfl

theorem copia_cadena (h : EsInt (c.1.length : ℤ)) : Copia (largo c, bloque c) c.1 :=
  copia_de (largo_eq h) (List.prefix_append _ _)

theorem agregar_copia {p : Paquete} (h : Copia t u)
    (hcabe : EsInt ((p.buffer ++ u).length : ℤ)) : agregar p t = some (agregarAPaquete p u) := by
  obtain ⟨hlargo, hprefijo⟩ := h
  rw [List.length_append, Int.natCast_add] at hcabe
  rw [agregar, hlargo, if_pos ⟨Int.natCast_nonneg _, hcabe⟩, Int.toNat_natCast,
    ← List.prefix_iff_eq_take.mp hprefijo]

/-- While the size fits in an `int`, the buffer is the concatenation of what is added. -/
theorem agregar_todo {p : Paquete} (h : List.Forall₂ Copia ts us)
    (hcabe : EsInt ((p.buffer ++ us.flatten).length : ℤ)) :
    ts.foldlM agregar p = some (agregarAPaquete p us.flatten) := by
  induction h generalizing p with
  | nil => simp [agregarAPaquete]
  | @cons t u ts us htu _ ih =>
    rw [List.flatten_cons, ← List.append_assoc] at hcabe
    have hcorto : EsInt ((p.buffer ++ u).length : ℤ) := by
      obtain ⟨-, hmax⟩ := hcabe
      rw [List.length_append] at hmax
      constructor <;> omega
    rw [List.foldlM_cons, agregar_copia htu hcorto, Option.bind_eq_bind, Option.bind_some, ih hcabe]
    simp [agregarAPaquete]

theorem armar_eq (h : List.Forall₂ Copia ts us) (hcabe : EsInt (us.flatten.length : ℤ)) :
    armar codigo ts = some ⟨codigo.codigo, us.flatten⟩ :=
  agregar_todo (p := crearPaquete codigo.codigo) h hcabe

end Armado

section Cargas

/-- The values that a sender holds. -/
inductive Carga where
  | pcb (pid programCounter tamanioProceso : EnteroC) (estado : Estado) (path : CadenaC)
    (estimacionRafaga rafagaRealAnterior : UInt64)
  | instruccion (opcode : CadenaC) (parametros : List (Option CadenaC))
    (cantidad_le : parametros.length ≤ MAX_PARAMETROS)
  | initProc (path : CadenaC) (tamanioProceso : EnteroC)
  | initProcMemoria (pid tamanioProceso : EnteroC) (path : CadenaC)
  | io (nombre : CadenaC) (pid tiempo : EnteroC)
  | finIo (nombre : CadenaC) (pid : EnteroC)

/-- The receiver gets the fields of the sender, and its offset ends where the payload does.
The name in a completion is not read. -/
def Coincide : Carga → Prop
  | .pcb pid programCounter tamanioProceso estado path e r => ∃ p xs,
      enviarPcbPorSocket pid programCounter tamanioProceso estado path e r = some p ∧
      leerDesde recibirPcb p.buffer 0 =
        some (⟨pid, programCounter, tamanioProceso, codigoEstado estado, xs, e, r⟩,
          p.buffer.length) ∧
      cadenaC xs = some path.1
  | .instruccion opcode parametros _ => ∃ p inst,
      enviarInstruccion opcode parametros = some p ∧
      leerDesde recibirInstruccion p.buffer 0 = some (inst, p.buffer.length) ∧
      deserializarInstruccion p.buffer = some (some inst) ∧
      cadenaC inst.opcode = some opcode.1 ∧
      inst.parametros.map (Option.map cadenaC) =
        parametros.map (Option.map fun s => some s.1)
  | .initProc path tamanioProceso => ∃ p xs,
      manejarInstruccionInitProceso path tamanioProceso = some p ∧
      leerDesde recibirInitProc p.buffer 0 = some ((xs, tamanioProceso.1), p.buffer.length) ∧
      cadenaC xs = some path.1
  | .initProcMemoria pid tamanioProceso path => ∃ p xs,
      solicitarAdmisionAMemoria pid tamanioProceso path = some p ∧
      leerDesde recibirInitProcMemoria p.buffer 0 =
        some ((pid.1, tamanioProceso.1, xs), p.buffer.length) ∧
      cadenaC xs = some path.1
  | .io nombre pid tiempo => ∃ p xs,
      despacharIoSiEsPosible nombre pid tiempo = some p ∧
      leerDesde escucharSolicitudesIo p.buffer 0 =
        some ((xs, pid.1, tiempo.1), p.buffer.length) ∧
      cadenaC xs = some nombre.1
  | .finIo nombre pid => ∃ p,
      enviarFinalizacion nombre pid = some p ∧
      leerDesde hiloEscuchaIo p.buffer 0 =
        some ((pid.1, (OpCode.finalizoIo.codigo : ℤ)), p.buffer.length)

def camposParametro : Option CadenaC → List (List Byte)
  | some s => [bytesInt (largoConFin s), bloque s]
  | none => [bytesInt 0]

/-- The payload, field by field. -/
def Carga.campos : Carga → List (List Byte)
  | .pcb pid programCounter tamanioProceso estado path e r =>
      [bytesInt pid, bytesInt programCounter, bytesInt tamanioProceso,
        bytesInt (codigoEstado estado), bytesInt (largoConFin path), bloque path,
        bytesDoble e, bytesDoble r]
  | .instruccion opcode parametros _ =>
      [bytesInt (largoConFin opcode), bloque opcode, bytesInt parametros.length] ++
        parametros.flatMap camposParametro
  | .initProc path tamanioProceso => [bytesInt (largo path), path.1, bytesInt tamanioProceso]
  | .initProcMemoria pid tamanioProceso path =>
      [bytesInt pid, bytesInt tamanioProceso, bytesInt (largoConFin path), bloque path]
  | .io nombre pid tiempo =>
      [bytesInt (largoConFin nombre), bloque nombre, bytesInt pid, bytesInt tiempo]
  | .finIo nombre pid =>
      [bytesInt (largo nombre), nombre.1, bytesInt pid, bytesInt OpCode.finalizoIo.codigo]

/-- The payload has at most `2 ^ 31 - 1` bytes. -/
def Cabe (c : Carga) : Prop := EsInt (c.campos.flatten.length : ℤ)

instance (c : Carga) : Decidable (Cabe c) := inferInstanceAs (Decidable (EsInt _))

end Cargas

section Lectura

variable {opcode path nombre : CadenaC} {ps : List (Option CadenaC)}
  {pid programCounter tamanioProceso tiempo : EnteroC} {estado : Estado} {e r : UInt64}

theorem corto_de_mem {us : List (List Byte)} {u : List Byte}
    (hcabe : EsInt (us.flatten.length : ℤ)) (hu : u ∈ us) : EsInt (u.length : ℤ) := by
  have hle := (List.sublist_flatten_of_mem hu).length_le
  obtain ⟨-, hmax⟩ := hcabe
  constructor <;> omega

theorem lee_bloque {c : CadenaC} (h : EsInt ((bloque c).length : ℤ)) :
    Lee (bytes (largoConFin c)) (bloque c) (bloque c) := by
  rw [largoConFin_eq h]
  exact lee_bytes _

theorem lee_cadena {c : CadenaC} (h : EsInt (c.1.length : ℤ)) : Lee (bytes (largo c)) c.1 c.1 := by
  rw [largo_eq h]
  exact lee_bytes _

theorem lee_largoConFin (c : CadenaC) : Lee entero (bytesInt (largoConFin c)) (largoConFin c) :=
  lee_entero (esInt_aInt _)

theorem lee_largo (c : CadenaC) : Lee entero (bytesInt (largo c)) (largo c) :=
  lee_entero (esInt_aInt _)

theorem leerDesde_trozo (largo : ℤ) (xs : List Byte) (desde : ℕ) :
    leerDesde (trozo largo) xs desde =
      match leerTrozo xs desde largo with
      | some (some bytes) => some (bytes, desde + largo.toNat)
      | _ => none := rfl

/-- The test of `fetch` on the sum lets through what lies inside the buffer. -/
theorem lee_trozo {c : CadenaC} (h : EsInt ((bloque c).length : ℤ)) :
    Lee (trozo (largoConFin c)) (bloque c) (bloque c) := by
  intro antes despues hcabe
  rw [List.length_append, Int.natCast_add] at hcabe
  have htrozo := leerTrozo_exacto antes (bloque c) despues hcabe
  rw [leerDesde_trozo, largoConFin_eq h, htrozo, Int.toNat_natCast]

theorem lee_parametro {o : Option CadenaC}
    (h : EsInt ((camposParametro o).flatten.length : ℤ)) :
    Lee parametro (camposParametro o).flatten (o.map bloque) := by
  cases o with
  | none =>
    have hcero : Lee entero (bytesInt 0) 0 := lee_entero (by decide)
    exact lee_bind (f := punteroParametro) hcero lee_pure
  | some c =>
    have hcorto : EsInt ((bloque c).length : ℤ) :=
      corto_de_mem h (List.mem_cons_of_mem _ List.mem_cons_self)
    have hpos : 0 < largoConFin c := by
      rw [largoConFin_eq hcorto, bloque, List.length_append, List.length_singleton]
      omega
    have hresto : Lee (punteroParametro (largoConFin c)) (bloque c) (some (bloque c)) := by
      rw [punteroParametro, if_pos hpos]
      exact lee_fin (lee_trozo hcorto)
    have hcampos : (camposParametro (some c)).flatten = bytesInt (largoConFin c) ++ bloque c := by
      simp [camposParametro]
    rw [hcampos]
    exact lee_bind (lee_largoConFin c) hresto

theorem lee_parametros (h : EsInt ((ps.flatMap camposParametro).flatten.length : ℤ)) :
    Lee (parametros ps.length) (ps.flatMap camposParametro).flatten
      (ps.map (Option.map bloque)) := by
  induction ps with
  | nil => exact lee_pure
  | cons o ps ih =>
    rw [List.flatMap_cons, List.flatten_append] at h ⊢
    have hcortos : EsInt ((camposParametro o).flatten.length : ℤ) ∧
        EsInt ((ps.flatMap camposParametro).flatten.length : ℤ) := by
      obtain ⟨-, hmax⟩ := h
      rw [List.length_append] at hmax
      constructor <;> constructor <;> omega
    exact lee_bind (lee_parametro hcortos.1) (lee_fin (ih hcortos.2))

/-- The offset of a record is the sum of the lengths of its fields. -/
theorem lee_pcb (h : EsInt ((bloque path).length : ℤ)) :
    Lee recibirPcb (Carga.pcb pid programCounter tamanioProceso estado path e r).campos.flatten
      ⟨pid, programCounter, tamanioProceso, codigoEstado estado, bloque path, e, r⟩ := by
  simp only [Carga.campos, List.flatten_cons, List.flatten_nil, List.append_nil]
  apply lee_bind (lee_entero pid.2)
  apply lee_bind (lee_entero programCounter.2)
  apply lee_bind (lee_entero tamanioProceso.2)
  apply lee_bind (lee_entero (esInt_codigoEstado estado))
  apply lee_bind (lee_largoConFin path)
  apply lee_bind (lee_bloque h)
  apply lee_bind (lee_doble e)
  exact lee_fin (lee_doble r)

theorem lee_instruccion {hps : ps.length ≤ MAX_PARAMETROS}
    (hcabe : Cabe (.instruccion opcode ps hps)) :
    Lee recibirInstruccion (Carga.instruccion opcode ps hps).campos.flatten
      ⟨bloque opcode, ps.map (Option.map bloque)⟩ := by
  have hopcode : EsInt ((bloque opcode).length : ℤ) := corto_de_mem hcabe (by simp [Carga.campos])
  have hparametros : EsInt ((ps.flatMap camposParametro).flatten.length : ℤ) := by
    obtain ⟨-, hmax⟩ := hcabe
    rw [Carga.campos, List.flatten_append, List.length_append] at hmax
    constructor <;> omega
  have hcantidad : 0 ≤ (ps.length : ℤ) ∧ (ps.length : ℤ) ≤ MAX_PARAMETROS := by omega
  have hresto : Lee (cuerpoInstruccion (bloque opcode) ps.length)
      (ps.flatMap camposParametro).flatten ⟨bloque opcode, ps.map (Option.map bloque)⟩ := by
    rw [cuerpoInstruccion, if_pos hcantidad, Int.toNat_natCast]
    exact lee_fin (lee_parametros hparametros)
  simp only [Carga.campos, List.cons_append, List.nil_append, List.flatten_cons]
  apply lee_bind (lee_largoConFin opcode)
  apply lee_bind (lee_trozo hopcode)
  exact lee_bind (lee_entero (esInt_cantidad hps)) hresto

theorem lee_initProc (h : EsInt (path.1.length : ℤ)) :
    Lee recibirInitProc (Carga.initProc path tamanioProceso).campos.flatten
      (bloque path, tamanioProceso.1) := by
  simp only [Carga.campos, List.flatten_cons, List.flatten_nil, List.append_nil]
  apply lee_bind (lee_largo path)
  apply lee_bind (lee_cadena h)
  exact lee_fin (lee_entero tamanioProceso.2)

theorem lee_initProcMemoria (h : EsInt ((bloque path).length : ℤ)) :
    Lee recibirInitProcMemoria (Carga.initProcMemoria pid tamanioProceso path).campos.flatten
      (pid.1, tamanioProceso.1, bloque path ++ [0]) := by
  simp only [Carga.campos, List.flatten_cons, List.flatten_nil, List.append_nil]
  apply lee_bind (lee_entero pid.2)
  apply lee_bind (lee_entero tamanioProceso.2)
  apply lee_bind (lee_largoConFin path)
  exact lee_fin (lee_bloque h)

theorem lee_io (h : EsInt ((bloque nombre).length : ℤ)) :
    Lee escucharSolicitudesIo (Carga.io nombre pid tiempo).campos.flatten
      (bloque nombre ++ [0], pid.1, tiempo.1) := by
  simp only [Carga.campos, List.flatten_cons, List.flatten_nil, List.append_nil]
  apply lee_bind (lee_largoConFin nombre)
  apply lee_bind (lee_bloque h)
  apply lee_bind (lee_entero pid.2)
  exact lee_fin (lee_entero tiempo.2)

theorem lee_finIo (h : EsInt (nombre.1.length : ℤ)) :
    Lee hiloEscuchaIo (Carga.finIo nombre pid).campos.flatten
      (pid.1, (OpCode.finalizoIo.codigo : ℤ)) := by
  have hsalto : Lee (saltar (largo nombre)) nombre.1 () := by
    rw [largo_eq h]
    exact lee_saltar _
  simp only [Carga.campos, List.flatten_cons, List.flatten_nil, List.append_nil]
  apply lee_bind (lee_largo nombre)
  apply lee_bind hsalto
  apply lee_bind (lee_entero pid.2)
  exact lee_fin (lee_entero (by decide))

end Lectura

section Fetch

variable {xs bs : List Byte} {desde hasta n : ℕ} {largo : ℤ}

theorem leerTrozo_de_trozo (h : leerDesde (trozo largo) xs desde = some (bs, hasta)) :
    leerTrozo xs desde largo = some (some bs) ∧ hasta = desde + largo.toNat := by
  rw [leerDesde_trozo] at h
  split at h
  · next bytes htrozo =>
    cases h
    exact ⟨htrozo, rfl⟩
  · cases h

theorem leerInt_de_entero {x : ℤ} (h : leerDesde entero xs desde = some (x, hasta)) :
    leerInt xs desde = some x ∧ hasta = desde + 4 := by
  rw [leerDesde_entero, Option.map_eq_some_iff] at h
  obtain ⟨y, hy, heq⟩ := h
  cases heq
  exact ⟨hy, rfl⟩

theorem leerParametros_de_parametros {ps : List (Option (List Byte))}
    (h : leerDesde (parametros n) xs desde = some (ps, hasta)) :
    leerParametros xs n desde = some (some ps) := by
  induction n generalizing desde ps with
  | zero =>
    cases h
    rfl
  | succ n ih =>
    rw [parametros, leerDesde_bind, Option.bind_eq_some_iff] at h
    obtain ⟨⟨o, medio⟩, hprimero, h⟩ := h
    dsimp only at h
    rw [leerDesde_bind, Option.bind_eq_some_iff] at h
    obtain ⟨⟨resto, final⟩, hresto, h⟩ := h
    cases h
    rw [parametro, leerDesde_bind, Option.bind_eq_some_iff] at hprimero
    obtain ⟨⟨paramLen, trasLargo⟩, hentero, hpuntero⟩ := hprimero
    obtain ⟨hint, rfl⟩ := leerInt_de_entero hentero
    dsimp only at hpuntero
    unfold punteroParametro at hpuntero
    rw [leerParametros, hint]
    dsimp only
    split at hpuntero
    · next hpos =>
      rw [leerDesde_bind, Option.bind_eq_some_iff] at hpuntero
      obtain ⟨⟨bytes, trasBytes⟩, hbloque, hpuntero⟩ := hpuntero
      cases hpuntero
      obtain ⟨htrozo, rfl⟩ := leerTrozo_de_trozo hbloque
      rw [if_pos hpos, htrozo, Option.bind_eq_bind, Option.bind_some]
      dsimp only
      rw [ih hresto]
      rfl
    · next hcero =>
      cases hpuntero
      rw [if_neg hcero, ih hresto]
      rfl

/-- What the reader gets is what `fetch` returns. -/
theorem deserializar_de_recibir {inst : InstruccionCpu}
    (h : leerDesde recibirInstruccion xs 0 = some (inst, hasta)) :
    deserializarInstruccion xs = some (some inst) := by
  rw [recibirInstruccion, leerDesde_bind, Option.bind_eq_some_iff] at h
  obtain ⟨⟨opcodeLength, _⟩, hentero, h⟩ := h
  obtain ⟨hint, rfl⟩ := leerInt_de_entero hentero
  dsimp only at h
  rw [leerDesde_bind, Option.bind_eq_some_iff] at h
  obtain ⟨⟨opcode, _⟩, hbloque, h⟩ := h
  obtain ⟨htrozo, rfl⟩ := leerTrozo_de_trozo hbloque
  dsimp only at h
  rw [leerDesde_bind, Option.bind_eq_some_iff] at h
  obtain ⟨⟨cantidad, _⟩, hcuenta, h⟩ := h
  obtain ⟨hcantidad, rfl⟩ := leerInt_de_entero hcuenta
  dsimp only at h
  unfold cuerpoInstruccion at h
  split at h
  · next hrango =>
    rw [leerDesde_bind, Option.bind_eq_some_iff] at h
    obtain ⟨⟨ps, _⟩, hps, h⟩ := h
    cases h
    have hparametros := leerParametros_de_parametros hps
    rw [Nat.zero_add] at htrozo hcantidad hparametros
    have hdesde : 4 + opcodeLength.toNat + 4 = 8 + opcodeLength.toNat := by omega
    rw [hdesde] at hparametros
    rw [deserializarInstruccion, hint]
    dsimp only
    rw [htrozo, Option.bind_eq_bind, Option.bind_some]
    dsimp only
    rw [hcantidad]
    dsimp only
    rw [if_neg (not_lt.mpr hrango.2), if_neg (not_lt.mpr hrango.1), hparametros]
    rfl
  · cases h

end Fetch

section Acuerdo

theorem copian_parametros {ps : List (Option CadenaC)}
    (h : EsInt ((ps.flatMap camposParametro).flatten.length : ℤ)) :
    List.Forall₂ Copia (ps.flatMap deParametro) (ps.flatMap camposParametro) := by
  induction ps with
  | nil => exact .nil
  | cons o ps ih =>
    rw [List.flatMap_cons, List.flatten_append] at h
    have hcortos : EsInt ((camposParametro o).flatten.length : ℤ) ∧
        EsInt ((ps.flatMap camposParametro).flatten.length : ℤ) := by
      obtain ⟨-, hmax⟩ := h
      rw [List.length_append] at hmax
      constructor <;> constructor <;> omega
    rw [List.flatMap_cons, List.flatMap_cons]
    refine List.rel_append ?_ (ih hcortos.2)
    cases o with
    | none => exact .cons (copia_int 0) .nil
    | some c =>
      have hcorto := corto_de_mem hcortos.1 (List.mem_cons_of_mem _ List.mem_cons_self)
      exact .cons (copia_int _) (.cons (copia_bloque hcorto) .nil)

theorem enviarInstruccion_eq {opcode : CadenaC} {ps : List (Option CadenaC)}
    {hps : ps.length ≤ MAX_PARAMETROS} (hcabe : Cabe (.instruccion opcode ps hps)) :
    enviarInstruccion opcode ps =
      some ⟨OpCode.instruccionOk.codigo, (Carga.instruccion opcode ps hps).campos.flatten⟩ := by
  have hopcode : EsInt ((bloque opcode).length : ℤ) := corto_de_mem hcabe (by simp [Carga.campos])
  have hparametros : EsInt ((ps.flatMap camposParametro).flatten.length : ℤ) := by
    obtain ⟨-, hmax⟩ := hcabe
    rw [Carga.campos, List.flatten_append, List.length_append] at hmax
    constructor <;> omega
  exact armar_eq (.cons (copia_int _) <| .cons (copia_bloque hopcode) <| .cons (copia_int _) <|
    copian_parametros hparametros) hcabe

/-- The six pairs agree on every message whose payload fits in an `int`. -/
theorem mensajes_coinciden (c : Carga) (hcabe : Cabe c) : Coincide c := by
  cases c with
  | pcb pid programCounter tamanioProceso estado path e r =>
    have hpath : EsInt ((bloque path).length : ℤ) := corto_de_mem hcabe (by simp [Carga.campos])
    have henvio : enviarPcbPorSocket pid programCounter tamanioProceso estado path e r = some _ :=
      armar_eq (.cons (copia_int _) <| .cons (copia_int _) <| .cons (copia_int _) <|
        .cons (copia_int _) <| .cons (copia_int _) <| .cons (copia_bloque hpath) <|
        .cons (copia_double _) <| .cons (copia_double _) .nil) hcabe
    refine ⟨_, bloque path, henvio, leerDesde_todo (lee_pcb hpath) hcabe, ?_⟩
    simpa using cadenaC_bloque path []
  | instruccion opcode ps hps =>
    have henvio := enviarInstruccion_eq hcabe
    have hlectura := leerDesde_todo (lee_instruccion hcabe) hcabe
    refine ⟨_, _, henvio, hlectura, deserializar_de_recibir hlectura, ?_, ?_⟩
    · simpa using cadenaC_bloque opcode []
    · rw [List.map_map]
      apply List.map_congr_left
      intro o _
      cases o with
      | none => rfl
      | some c => simpa using cadenaC_bloque c []
  | initProc path tamanioProceso =>
    have hpath : EsInt (path.1.length : ℤ) := corto_de_mem hcabe (by simp [Carga.campos])
    have henvio : manejarInstruccionInitProceso path tamanioProceso = some _ :=
      armar_eq (.cons (copia_int _) <| .cons (copia_cadena hpath) <| .cons (copia_int _) .nil) hcabe
    refine ⟨_, bloque path, henvio, leerDesde_todo (lee_initProc hpath) hcabe, ?_⟩
    simpa using cadenaC_bloque path []
  | initProcMemoria pid tamanioProceso path =>
    have hpath : EsInt ((bloque path).length : ℤ) := corto_de_mem hcabe (by simp [Carga.campos])
    have henvio : solicitarAdmisionAMemoria pid tamanioProceso path = some _ :=
      armar_eq (.cons (copia_int _) <| .cons (copia_int _) <| .cons (copia_int _) <|
        .cons (copia_bloque hpath) .nil) hcabe
    exact ⟨_, _, henvio, leerDesde_todo (lee_initProcMemoria hpath) hcabe, cadenaC_bloque path [0]⟩
  | io nombre pid tiempo =>
    have hnombre : EsInt ((bloque nombre).length : ℤ) := corto_de_mem hcabe (by simp [Carga.campos])
    have henvio : despacharIoSiEsPosible nombre pid tiempo = some _ :=
      armar_eq (.cons (copia_int _) <| .cons (copia_bloque hnombre) <| .cons (copia_int _) <|
        .cons (copia_int _) .nil) hcabe
    exact ⟨_, _, henvio, leerDesde_todo (lee_io hnombre) hcabe, cadenaC_bloque nombre [0]⟩
  | finIo nombre pid =>
    have hnombre : EsInt (nombre.1.length : ℤ) := corto_de_mem hcabe (by simp [Carga.campos])
    have henvio : enviarFinalizacion nombre pid = some _ :=
      armar_eq (.cons (copia_int _) <| .cons (copia_cadena hnombre) <| .cons (copia_int _) <|
        .cons (copia_int _) .nil) hcabe
    exact ⟨_, henvio, leerDesde_todo (lee_finIo hnombre) hcabe⟩

theorem sin_nul : (0 : Byte) ∉ ([87] : List Byte) := by decide

def letra : CadenaC := ⟨[87], sin_nul⟩

theorem tres_parametros : [some letra, none, some letra].length ≤ MAX_PARAMETROS := by decide

/-- An instruction with a null parameter between two others. -/
def cargaEjemplo : Carga := .instruccion letra [some letra, none, some letra] tres_parametros

theorem mensajes_coinciden_ejemplo : Coincide cargaEjemplo :=
  mensajes_coinciden cargaEjemplo (by decide)

theorem largo_sin_nul : (0 : Byte) ∉ List.replicate (2 ^ 32) (87 : Byte) := by
  intro h
  exact absurd (List.eq_of_mem_replicate h) (by decide)

def pathLargo : CadenaC := ⟨List.replicate (2 ^ 32) 87, largo_sin_nul⟩

theorem esInt_cero : EsInt 0 := by decide

/-- A path whose length is zero in an `int`. -/
def cargaLarga : Carga := .initProc pathLargo ⟨0, esInt_cero⟩

theorem largo_pathLargo : largo pathLargo = 0 := by
  rw [largo, pathLargo, List.length_replicate]
  decide

/-- The kernel reads an empty path. -/
theorem mensaje_largo_difiere : ¬ Coincide cargaLarga := by
  rintro ⟨p, xs, henvio, hlectura, hcadena⟩
  have hvacio : Copia (0, bloque pathLargo) [] := copia_de rfl List.nil_prefix
  have hcorto : armar .initProc [deInt 0, (0, bloque pathLargo), deInt 0] =
      some ⟨OpCode.initProc.codigo, [bytesInt 0, [], bytesInt 0].flatten⟩ :=
    armar_eq (.cons (copia_int 0) <| .cons hvacio <| .cons (copia_int 0) .nil) (by decide)
  rw [manejarInstruccionInitProceso, largo_pathLargo, hcorto] at henvio
  cases henvio
  have hleido : leerDesde recibirInitProc [bytesInt 0, [], bytesInt 0].flatten 0 =
      some (([0], 0), 8) := by decide
  rw [hleido] at hlectura
  cases hlectura
  have hlargo : ([] : List Byte).length = (List.replicate (2 ^ 32) (87 : Byte)).length :=
    congrArg List.length (Option.some.inj hcadena)
  rw [List.length_replicate] at hlargo
  exact absurd hlargo (by decide)

end Acuerdo

end ProtocoloMensajes

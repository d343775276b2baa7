import Tpssoo.ProtocoloMensajes
import Tpssoo.CpuCiclo

/-!
# The end of a burst

`OP_RESPUESTA_EJECUCION` from `enviar_respuesta_al_kernel` to the switch of
`recibir_y_manejar_respuesta_cpu`. The motive is a number: two of those that `ciclo_instruccion`
uses come from the other enumeration.
-/
namespace ProtocoloRespuesta

open EnterosC Protocolo LectorBytes CpuEstado CpuInstrucciones CpuCiclo ProtocoloMensajes
open KernelEstado (Motivo)

section Mensaje

/-- The packet; the name of the device is a null pointer when there is none. -/
def enviarRespuestaAlKernel (pid pc : ℤ) (motivo : ℕ) (nombreDispositivoIo : Option CadenaC)
    (duracionBloqueo : ℤ) : Option Paquete :=
  if motivo = OpCode.procesoBloqueanteIo.codigo then
    nombreDispositivoIo.bind fun nombre => armar .opRespuestaEjecucion
      [deInt pid, deInt pc, deInt motivo, deInt (largoConFin nombre),
        (largoConFin nombre, bloque nombre), deInt duracionBloqueo]
  else if motivo = OpCode.procesoBloqueanteDumpMemory.codigo then
    armar .opRespuestaEjecucion
      [deInt pid, deInt pc, deInt motivo, deInt 0, deInt 0, deInt duracionBloqueo]
  else armar .opRespuestaEjecucion [deInt pid, deInt pc, deInt motivo, deInt 0, deInt 0]

structure RespuestaEjecucion where
  pid : ℤ
  programCounter : ℤ
  motivo : ℤ
  nombreDispositivoIo : Option (List Byte)
  duracionBloqueo : ℤ
  deriving DecidableEq, Repr

/-- The name is only copied for IO. -/
def nombreDispositivo (motivo largo : ℤ) : Lector (Option (List Byte)) :=
  if motivo = OpCode.procesoBloqueanteIo.codigo then do
    let nombre ← bytes largo
    return some nombre
  else return none

def deserializarRespuestaCpu : Lector RespuestaEjecucion := do
  let pid ← entero
  let programCounter ← entero
  let motivo ← entero
  let nombreDispositivoLen ← entero
  let nombreDispositivoIo ← nombreDispositivo motivo nombreDispositivoLen
  let duracionBloqueo ← entero
  return ⟨pid, programCounter, motivo, nombreDispositivoIo, duracionBloqueo⟩

/-- The branch of the switch of the kernel; that of IO reads the name as a C string. -/
def ramaDe (r : RespuestaEjecucion) : Option Motivo :=
  if r.motivo = OpCode.exit.codigo then some .exit
  else if r.motivo = OpCode.procesoBloqueanteIo.codigo then
    (r.nombreDispositivoIo.bind cadenaC).map fun nombre => .bloqueanteIo nombre r.duracionBloqueo
  else if r.motivo = OpCode.procesoBloqueanteDumpMemory.codigo then some .bloqueanteDumpMemory
  else if r.motivo = OpCode.procesoInterrupcion.codigo then some .interrupcion
  else if r.motivo = OpCode.errorSegFault.codigo then some .errorSegFault
  else some .otro

end Mensaje

section Finales

/-- The ways in which `ciclo_instruccion` ends a burst. -/
inductive Final where
  | exit
  | io (nombre : CadenaC) (duracion : EnteroC)
  | dumpMemory
  | interrupcion
  | segmentationFault
  | errorFatal

/-- What `ciclo_instruccion` puts in `motivo_finalizacion`. -/
def Final.motivo : Final → ℕ
  | .exit => OpCode.exit.codigo
  | .io _ _ => OpCode.procesoBloqueanteIo.codigo
  | .dumpMemory => OpCode.procesoBloqueanteDumpMemory.codigo
  | .interrupcion => OpCode.procesoInterrupcion.codigo
  | .segmentationFault => ResultadoEjecucion.segmentationFault.codigo
  | .errorFatal => ResultadoEjecucion.errorEjecucionFatal.codigo

/-- The branch written for it; a fatal error has none of its own. -/
def Final.rama : Final → Motivo
  | .exit => .exit
  | .io nombre duracion => .bloqueanteIo nombre.1 duracion.1
  | .dumpMemory => .bloqueanteDumpMemory
  | .interrupcion => .interrupcion
  | .segmentationFault => .errorSegFault
  | .errorFatal => .otro

/-- The response for a way of ending. In a burst that ends otherwise than by IO the name and the
duration are those of the variables, whatever they hold. -/
def Final.envia (pid pc : EnteroC) (nombre : Option CadenaC) (duracion : EnteroC) :
    Final → Option Paquete
  | .io nombre duracion =>
    enviarRespuestaAlKernel pid.1 pc.1 (Final.io nombre duracion).motivo (some nombre) duracion.1
  | f => enviarRespuestaAlKernel pid.1 pc.1 f.motivo nombre duracion.1

/-- The kernel decodes the payload within its bounds, gets the PID and the program counter, and
takes the branch of that way of ending, with its name and duration for IO. -/
def Fiel (pid pc : EnteroC) (nombre : Option CadenaC) (duracion : EnteroC) (f : Final) : Prop :=
  ∃ p r hasta, f.envia pid pc nombre duracion = some p ∧
    p.codigoOperacion = OpCode.opRespuestaEjecucion.codigo ∧
    leerDesde deserializarRespuestaCpu p.buffer 0 = some (r, hasta) ∧ hasta ≤ p.buffer.length ∧
    r.pid = pid.1 ∧ r.programCounter = pc.1 ∧ ramaDe r = some f.rama

/-- The number of a segmentation fault is not that of `ERROR_SEG_FAULT`, and the size of the
payload of IO is an `int`. -/
def LlegaBien : Final → Prop
  | .io nombre _ => 21 + nombre.1.length < 2 ^ 31
  | .segmentationFault => False
  | _ => True

/-- Every turn that ends a burst ends it in one of these ways. -/
theorem final_de_vuelta {σ : Type} {M : Maquina σ} {pendiente : Bool} {s s' : σ} {pc : ℤ}
    {r : Respuesta} {syscalls : List Syscall}
    (h : vuelta M pendiente s pc = some (.termina s' r syscalls)) :
    ∃ f : Final, r.motivo = f.motivo := by
  obtain ⟨⟨inst, s₁⟩, -, h⟩ := Option.bind_eq_some_iff.mp h
  cases inst with
  | none =>
    cases h
    exact ⟨.errorFatal, rfl⟩
  | some inst =>
    obtain ⟨e, -, h⟩ := Option.map_eq_some_iff.mp h
    rw [cerrarVuelta] at h
    cases pendiente with
    | true =>
      cases h
      exact ⟨.interrupcion, rfl⟩
    | false =>
      cases hres : e.resultado <;> rw [hres] at h <;> cases h
      · exact ⟨.errorFatal, rfl⟩
      · exact ⟨.io ⟨[], List.not_mem_nil⟩ ⟨0, esInt_cero⟩, rfl⟩
      · exact ⟨.dumpMemory, rfl⟩
      · exact ⟨.exit, rfl⟩
      · exact ⟨.errorFatal, rfl⟩
      · exact ⟨.errorFatal, rfl⟩
      · exact ⟨.errorFatal, rfl⟩
      · exact ⟨.segmentationFault, rfl⟩

end Finales

section Lectura

variable {pid pc : EnteroC} {motivo : ℕ} {nombre : CadenaC} {duracion : EnteroC}

/-- Without a name: five integers, whatever follows them. -/
theorem lee_sin_nombre (pid pc : EnteroC) (hmotivo : EsInt (motivo : ℤ))
    (hio : motivo ≠ OpCode.procesoBloqueanteIo.codigo) :
    Lee deserializarRespuestaCpu
      [bytesInt pid.1, bytesInt pc.1, bytesInt motivo, bytesInt 0, bytesInt 0].flatten
      ⟨pid.1, pc.1, motivo, none, 0⟩ := by
  have hnombre : Lee (nombreDispositivo motivo 0) [] none := by
    rw [nombreDispositivo, if_neg (by exact_mod_cast hio)]
    exact lee_pure
  have hcero : Lee entero (bytesInt 0) 0 := lee_entero (by decide)
  simp only [List.flatten_cons, List.flatten_nil, List.append_nil]
  apply lee_bind (lee_entero pid.2)
  apply lee_bind (lee_entero pc.2)
  apply lee_bind (lee_entero hmotivo)
  apply lee_bind hcero
  apply lee_bind hnombre
  exact lee_fin hcero

/-- With a block of the length announced. -/
theorem lee_con_nombre (pid pc duracion : EnteroC) {largo : ℤ} {ys : List Byte}
    (hlargo : EsInt largo) (hys : largo = ys.length) :
    Lee deserializarRespuestaCpu
      [bytesInt pid.1, bytesInt pc.1, bytesInt OpCode.procesoBloqueanteIo.codigo, bytesInt largo,
        ys, bytesInt duracion.1].flatten
      ⟨pid.1, pc.1, OpCode.procesoBloqueanteIo.codigo, some ys, duracion.1⟩ := by
  have hnombre : Lee (nombreDispositivo OpCode.procesoBloqueanteIo.codigo largo) ys (some ys) := by
    rw [nombreDispositivo, if_pos rfl, hys]
    exact lee_fin (lee_bytes ys)
  simp only [List.flatten_cons, List.flatten_nil, List.append_nil]
  apply lee_bind (lee_entero pid.2)
  apply lee_bind (lee_entero pc.2)
  apply lee_bind (lee_entero (by decide))
  apply lee_bind (lee_entero hlargo)
  apply lee_bind hnombre
  exact lee_fin (lee_entero duracion.2)

/-- A response without a name is always sent and decoded. -/
theorem respuesta_sin_nombre (pid pc duracion : EnteroC) (nombre : Option CadenaC)
    (hmotivo : EsInt (motivo : ℤ)) (hio : motivo ≠ OpCode.procesoBloqueanteIo.codigo) :
    ∃ p, enviarRespuestaAlKernel pid.1 pc.1 motivo nombre duracion.1 = some p ∧
      p.codigoOperacion = OpCode.opRespuestaEjecucion.codigo ∧
      leerDesde deserializarRespuestaCpu p.buffer 0 =
        some (⟨pid.1, pc.1, motivo, none, 0⟩, 20) ∧ 20 ≤ p.buffer.length := by
  have hlee := lee_sin_nombre pid pc hmotivo hio
  have hlargo : [bytesInt pid.1, bytesInt pc.1, bytesInt motivo, bytesInt 0,
      bytesInt 0].flatten.length = 20 := by simp
  rw [enviarRespuestaAlKernel, if_neg hio]
  split
  · have hdump : armar .opRespuestaEjecucion [deInt pid.1, deInt pc.1, deInt motivo, deInt 0,
        deInt 0, deInt duracion.1] = some _ :=
      armar_eq (.cons (copia_int _) <| .cons (copia_int _) <| .cons (copia_int _) <|
        .cons (copia_int _) <| .cons (copia_int _) <| .cons (copia_int _) .nil)
        (by simp [EsInt])
    refine ⟨_, hdump, rfl, ?_, by simp⟩
    have htodo := hlee [] (bytesInt duracion.1) (by rw [List.nil_append, hlargo]; decide)
    rw [hlargo] at htodo
    simpa using htodo
  · have hresto : armar .opRespuestaEjecucion [deInt pid.1, deInt pc.1, deInt motivo, deInt 0,
        deInt 0] = some _ :=
      armar_eq (.cons (copia_int _) <| .cons (copia_int _) <| .cons (copia_int _) <|
        .cons (copia_int _) <| .cons (copia_int _) .nil) (by simp [EsInt])
    refine ⟨_, hresto, rfl, ?_, by simp⟩
    have htodo := leerDesde_todo hlee (by rw [hlargo]; decide)
    rw [hlargo] at htodo
    exact htodo

/-- The part of the name that its length in an `int` lets through. -/
def copiado (nombre : CadenaC) : List Byte := (bloque nombre).take (largoConFin nombre).toNat

theorem largoConFin_le (nombre : CadenaC) : largoConFin nombre ≤ (bloque nombre).length := by
  rw [bloque, List.length_append, List.length_singleton]
  exact_mod_cast aInt_le (x := (nombre.1.length : ℤ) + 1) (by omega)

theorem length_copiado (h : 0 ≤ largoConFin nombre) :
    largoConFin nombre = (copiado nombre).length := by
  have hle := largoConFin_le nombre
  rw [copiado, List.length_take]
  omega

/-- The packet of IO, when its size fits in an `int`. -/
theorem respuesta_io (pid pc duracion : EnteroC) (h : 0 ≤ largoConFin nombre)
    (hcabe : 20 + largoConFin nombre < 2 ^ 31) :
    ∃ p, enviarRespuestaAlKernel pid.1 pc.1 OpCode.procesoBloqueanteIo.codigo (some nombre)
        duracion.1 = some p ∧ p.codigoOperacion = OpCode.opRespuestaEjecucion.codigo ∧
      leerDesde deserializarRespuestaCpu p.buffer 0 =
        some (⟨pid.1, pc.1, OpCode.procesoBloqueanteIo.codigo, some (copiado nombre),
          duracion.1⟩, p.buffer.length) := by
  have hlargo := length_copiado h
  have hsize : EsInt (([bytesInt pid.1, bytesInt pc.1,
      bytesInt OpCode.procesoBloqueanteIo.codigo, bytesInt (largoConFin nombre), copiado nombre,
      bytesInt duracion.1].flatten.length : ℕ) : ℤ) := by
    simp only [List.flatten_cons, List.flatten_nil, List.append_nil, List.length_append,
      length_bytesInt]
    constructor <;> omega
  have hcopia : Copia (largoConFin nombre, bloque nombre) (copiado nombre) :=
    copia_de hlargo (List.take_prefix _ _)
  have henvio : armar .opRespuestaEjecucion [deInt pid.1, deInt pc.1,
      deInt OpCode.procesoBloqueanteIo.codigo, deInt (largoConFin nombre),
      (largoConFin nombre, bloque nombre), deInt duracion.1] = some _ :=
    armar_eq (.cons (copia_int _) <| .cons (copia_int _) <| .cons (copia_int _) <|
      .cons (copia_int _) <| .cons hcopia <| .cons (copia_int _) .nil) hsize
  rw [enviarRespuestaAlKernel, if_pos rfl, Option.bind_some]
  exact ⟨_, henvio, rfl,
    leerDesde_todo (lee_con_nombre pid pc duracion (esInt_aInt _) hlargo) hsize⟩

theorem respuesta_io_none (pid pc duracion : EnteroC)
    (h : largoConFin nombre < 0 ∨ 2 ^ 31 ≤ 20 + largoConFin nombre) :
    enviarRespuestaAlKernel pid.1 pc.1 OpCode.procesoBloqueanteIo.codigo (some nombre)
      duracion.1 = none := by
  have hcabecera : [deInt pid.1, deInt pc.1, deInt OpCode.procesoBloqueanteIo.codigo,
      deInt (largoConFin nombre)].foldlM agregar
        (crearPaquete OpCode.opRespuestaEjecucion.codigo) = some _ :=
    armar_eq (.cons (copia_int _) <| .cons (copia_int _) <| .cons (copia_int _) <|
      .cons (copia_int _) .nil) (by simp [EsInt])
  have hpartes : [deInt pid.1, deInt pc.1, deInt OpCode.procesoBloqueanteIo.codigo,
      deInt (largoConFin nombre), (largoConFin nombre, bloque nombre), deInt duracion.1] =
      [deInt pid.1, deInt pc.1, deInt OpCode.procesoBloqueanteIo.codigo,
        deInt (largoConFin nombre)] ++
      [(largoConFin nombre, bloque nombre), deInt duracion.1] := rfl
  rw [enviarRespuestaAlKernel, if_pos rfl, Option.bind_some, armar, hpartes, List.foldlM_append,
    hcabecera, Option.bind_eq_bind, Option.bind_some, List.foldlM_cons, agregar]
  split
  · next hsi =>
    obtain ⟨hpos, -⟩ := hsi
    dsimp only at hpos
    have hlargo := length_copiado hpos
    rw [Option.bind_eq_bind, Option.bind_some, List.foldlM_cons, agregar, if_neg]
    · rfl
    · rintro ⟨-, -, hmax⟩
      change _ + (4 : ℤ) < _ at hmax
      simp only [agregarAPaquete, List.flatten_cons, List.flatten_nil, List.append_nil,
        List.length_append, length_bytesInt] at hmax
      change ((4 + (4 + (4 + 4)) + (copiado nombre).length : ℕ) : ℤ) + 4 < _ at hmax
      omega
  · rfl

/-- The kernel gets the name exactly when it is copied with its terminator. -/
theorem rama_io (h : 0 ≤ largoConFin nombre) (pid pc d : ℤ) :
    ramaDe ⟨pid, pc, OpCode.procesoBloqueanteIo.codigo, some (copiado nombre), d⟩ =
        some (.bloqueanteIo nombre.1 d) ↔
      largoConFin nombre = (bloque nombre).length := by
  have hrama : ramaDe ⟨pid, pc, OpCode.procesoBloqueanteIo.codigo, some (copiado nombre), d⟩ =
      (cadenaC (copiado nombre)).map fun nombre => .bloqueanteIo nombre d := by
    rw [ramaDe, if_neg, if_pos rfl, Option.bind_some]
    dsimp only
    decide
  rw [hrama]
  constructor
  · intro hsi
    by_contra hcorto
    have hlargo := length_copiado h
    have hle := largoConFin_le nombre
    have hbloque : (bloque nombre).length = nombre.1.length + 1 := by
      rw [bloque, List.length_append, List.length_singleton]
    have hsin : (0 : Byte) ∉ copiado nombre := by
      rw [copiado, bloque, List.take_append_of_le_length (by omega)]
      exact fun hcero => nombre.2 (List.mem_of_mem_take hcero)
    rw [cadenaC, if_neg hsin] at hsi
    cases hsi
  · intro hlargo
    have htodo : copiado nombre = bloque nombre := by
      rw [copiado, hlargo, Int.toNat_natCast, List.take_length]
    have hcadena := cadenaC_bloque nombre []
    rw [List.append_nil] at hcadena
    rw [htodo, hcadena]
    rfl

end Lectura

/-- A burst's end is reported as it was exactly when it is not a segmentation fault and the payload
of IO, which has 21 bytes besides the name, fits in an `int`. -/
theorem respuesta_fiel_iff (pid pc : EnteroC) (nombre : Option CadenaC) (duracion : EnteroC)
    (f : Final) : Fiel pid pc nombre duracion f ↔ LlegaBien f := by
  have hnumero : ∀ f : Final, EsInt (f.motivo : ℤ) := by
    intro f
    cases f with
    | io nombre duracion => exact (by decide : EsInt (OpCode.procesoBloqueanteIo.codigo : ℤ))
    | _ => decide
  have hsimple : ∀ f : Final, f.motivo ≠ OpCode.procesoBloqueanteIo.codigo →
      f.envia pid pc nombre duracion =
        enviarRespuestaAlKernel pid.1 pc.1 f.motivo nombre duracion.1 →
      (Fiel pid pc nombre duracion f ↔
        ramaDe ⟨pid.1, pc.1, f.motivo, none, 0⟩ = some f.rama) := by
    intro f hio henvia
    obtain ⟨p, hp, hcodigo, hlee, hlargo⟩ :=
      respuesta_sin_nombre pid pc duracion nombre (hnumero f) hio
    constructor
    · rintro ⟨p', r, hasta, hp', -, hlee', -, -, -, hrama⟩
      rw [henvia, hp] at hp'
      cases hp'
      rw [hlee] at hlee'
      cases hlee'
      exact hrama
    · intro hrama
      exact ⟨p, _, 20, henvia.trans hp, hcodigo, hlee, hlargo, rfl, rfl, hrama⟩
  cases f with
  | exit => exact (hsimple .exit (by decide) rfl).trans (iff_of_true rfl trivial)
  | dumpMemory => exact (hsimple .dumpMemory (by decide) rfl).trans (iff_of_true rfl trivial)
  | interrupcion => exact (hsimple .interrupcion (by decide) rfl).trans (iff_of_true rfl trivial)
  | errorFatal => exact (hsimple .errorFatal (by decide) rfl).trans (iff_of_true rfl trivial)
  | segmentationFault =>
    refine (hsimple .segmentationFault (by decide) rfl).trans (iff_of_false ?_ id)
    intro h
    cases h
  | io nombreIo duracionIo =>
    have hbloque : (bloque nombreIo).length = nombreIo.1.length + 1 := by
      rw [bloque, List.length_append, List.length_singleton]
    have hcorto : LlegaBien (.io nombreIo duracionIo) →
        largoConFin nombreIo = (bloque nombreIo).length := by
      intro h
      have h : 21 + nombreIo.1.length < 2 ^ 31 := h
      exact largoConFin_eq ⟨by omega, by omega⟩
    by_cases hsale : 0 ≤ largoConFin nombreIo ∧ 20 + largoConFin nombreIo < 2 ^ 31
    · obtain ⟨p, hp, hcodigo, hlee⟩ := respuesta_io pid pc duracionIo hsale.1 hsale.2
      have hrama := rama_io hsale.1 pid.1 pc.1 duracionIo.1
      constructor
      · rintro ⟨p', r, hasta, hp', -, hlee', -, -, -, hsi⟩
        cases hp.symm.trans hp'
        rw [hlee] at hlee'
        cases hlee'
        have hlargo := hrama.mp hsi
        change 21 + nombreIo.1.length < 2 ^ 31
        omega
      · intro h
        exact ⟨p, _, _, hp, hcodigo, hlee, le_rfl, rfl, rfl, hrama.mpr (hcorto h)⟩
    · have hfuera : largoConFin nombreIo < 0 ∨ 2 ^ 31 ≤ 20 + largoConFin nombreIo := by omega
      have hnada := respuesta_io_none pid pc duracionIo hfuera
      refine iff_of_false ?_ fun h => hsale ?_
      · rintro ⟨p, r, hasta, hp, -⟩
        cases hnada.symm.trans hp
      · have hlargo := hcorto h
        have h : 21 + nombreIo.1.length < 2 ^ 31 := h
        omega

/-- Process 0 ends its burst with a segmentation fault: the kernel takes the default branch. -/
theorem falta_sin_rama : ∃ p r hasta,
    Final.segmentationFault.envia ⟨0, esInt_cero⟩ ⟨0, esInt_cero⟩ none ⟨0, esInt_cero⟩ = some p ∧
      leerDesde deserializarRespuestaCpu p.buffer 0 = some (r, hasta) ∧ ramaDe r = some .otro ∧
      ¬ Fiel ⟨0, esInt_cero⟩ ⟨0, esInt_cero⟩ none ⟨0, esInt_cero⟩ .segmentationFault := by
  obtain ⟨p, hp, -, hlee, -⟩ := @respuesta_sin_nombre Final.segmentationFault.motivo
    ⟨0, esInt_cero⟩ ⟨0, esInt_cero⟩ ⟨0, esInt_cero⟩ none (by decide) (by decide)
  refine ⟨p, _, 20, hp, hlee, rfl, ?_⟩
  rintro ⟨p', r, hasta, hp', -, hlee', -, -, -, hrama⟩
  cases hp.symm.trans hp'
  rw [hlee] at hlee'
  cases hlee'
  cases hrama

end ProtocoloRespuesta

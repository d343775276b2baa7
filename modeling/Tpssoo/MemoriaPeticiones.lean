import Tpssoo.MemoriaInstrucciones
import Tpssoo.MemoriaTraduccion

/-!
# Requests to Memoria

One handler for each request that `atender_post_handshake` dispatches. A handler takes
the state to what it sends and the next state; `none` is a handler that does not run to
completion, because the process dies or its behaviour is undefined.
-/
namespace MemoriaPeticiones

open EnterosC Protocolo ArbolRadix RangosBytes MemoriaEstado MemoriaSwap MemoriaPaginacion
  MemoriaInstrucciones MemoriaTraduccion

/-- What the operating system answers while one request is handled. -/
structure Entorno where
  archivos : List Byte → Option (List Byte)
  dumpAbre : Bool
  swap : ℕ → AccesoSwap

/-- No operation on the swap file fails. -/
def Entorno.SinFallas (env : Entorno) (cfg : Config) : Prop := ∀ n, (env.swap n).Completo cfg

inductive Peticion where
  | pedirInstrucciones (pid pc : ℤ)
  | pedirEspacioLibre
  | initProc (pid tamanioProceso largoPath : ℤ) (path : List Byte)
  | traducirTabla (pid direccionLogica : ℤ)
  | finalizarProceso (pid : ℤ)
  | leerMemoria (pid marcoFisico offset tamanio : ℤ)
  | escribirMemoria (pid marcoFisico offset tamanio : ℤ) (contenido : List Byte)
  | suspenderProceso (pid : ℤ)
  | desuspenderProceso (pid : ℤ)
  | dumpMemory (pid : ℤ)
  deriving DecidableEq, Repr

variable {cfg : Config}

/-- The outcome of a handler. -/
abbrev Atencion (cfg : Config) := Option (List Envio × Memoria cfg)

def conProceso (m : Memoria cfg) (p : Proceso cfg) : Memoria cfg :=
  { m with diccionarioProcesos := modificarProceso m.diccionarioProcesos p }

def conAlmacen (m : Memoria cfg) (a : Almacen) : Memoria cfg := { m with almacen := a }

section Procesos

/-- A C string with its length in front, terminator included. -/
def agregarCadena (p : Paquete) (xs : List Byte) : Paquete :=
  agregarAPaquete (agregarAPaquete p (bytesInt (xs.length + 1))) (xs ++ [0])

def paqueteInstruccion (inst : Instruccion) : Paquete :=
  let p := agregarCadena (crearPaquete OpCode.instruccionOk.codigo) inst.opcode.1
  let p := agregarAPaquete p (bytesInt inst.parametros.length)
  inst.parametros.foldl (fun p x => agregarCadena p x.1) p

def enviarInstruccionSegunPidYPc (m : Memoria cfg) (pid pc : ℤ) : Atencion cfg :=
  match buscarProceso m.diccionarioProcesos pid with
  -- the metric of the missing process is incremented before the reply is sent
  | none => none
  | some p =>
    let paquete :=
      match if 0 ≤ pc then p.instrucciones[pc.toNat]? else none with
      | none => agregarAPaquete (crearPaquete OpCode.errorPcFueraDeRango.codigo) (bytesInt pc)
      | some inst => paqueteInstruccion inst
    let metricas :=
      { p.metricas with instruccionesSolicitadas := p.metricas.instruccionesSolicitadas + 1 }
    some ([.paquete paquete], conProceso m { p with metricas := metricas })

def enviarEspacioLibre (m : Memoria cfg) : Atencion cfg :=
  let espacioLibre := aInt (contarMarcosLibres m.almacen.bitmapMarcos * cfg.tamPagina)
  some ([.crudo (bytesInt espacioLibre)], m)

/-- `ceil` of the exact quotient. -/
def paginasRequeridas (cfg : Config) (tamProceso : ℤ) : ℤ :=
  if tamProceso = 0 then 0 else -((-tamProceso) / cfg.tamPagina)

/-- The process as it enters the dictionary, and the frame bitmap after the assignment. -/
def crearProceso (cfg : Config) (bitmapMarcos : List Bool) (pid tamProceso : ℤ)
    (instrucciones : List Instruccion) : Proceso cfg × List Bool :=
  let paginas := paginasRequeridas cfg tamProceso
  if 0 < paginas then
    let r := asignarPaginasRecursivo cfg ⟨bitmapMarcos, paginas.toNat⟩ (crearTablaPagina cfg)
    (⟨pid, some r.2.2, instrucciones, tamProceso, paginas, .cero⟩, r.2.1.bitmapMarcos)
  else (⟨pid, none, instrucciones, tamProceso, 0, .cero⟩, bitmapMarcos)

def almacenarProcesoNuevo (env : Entorno) (m : Memoria cfg) (pid tamProceso : ℤ)
    (pathArchivo : List Byte) : Atencion cfg :=
  let paginas := paginasRequeridas cfg tamProceso
  if 0 < paginas ∧ (contarMarcosLibres m.almacen.bitmapMarcos : ℤ) < paginas then
    some (responder OpCode.noHayMarcosLibres.codigo, m)
  else
    match env.archivos (cfg.pathInstrucciones ++ cadena pathArchivo) with
    | none => some (responder OpCode.procesoNoAlmacenado.codigo, m)
    | some archivo => do
      let instrucciones ← cargarInstrucciones archivo
      let (proceso, bitmapMarcos) :=
        crearProceso cfg m.almacen.bitmapMarcos pid tamProceso instrucciones
      return (responder OpCode.initProcesoOk.codigo,
        { m with
          almacen := { m.almacen with bitmapMarcos := bitmapMarcos }
          diccionarioProcesos := guardarProceso m.diccionarioProcesos proceso })

def destruirProceso (m : Memoria cfg) (pid : ℤ) : Memoria cfg :=
  match buscarProceso m.diccionarioProcesos pid with
  | none => m
  | some p =>
    { m with
      almacen := liberarTablasProceso cfg m.almacen p.tablaNivel1
      diccionarioProcesos := quitarProceso m.diccionarioProcesos pid }

end Procesos

section Accesos

/-- The reply with the frame, -1 when there is none. -/
def paqueteTraduccion (op : OpCode) (pid direccionLogica marcoFinal : ℤ) : Paquete :=
  agregarAPaquete (agregarAPaquete (agregarAPaquete (crearPaquete op.codigo) (bytesInt pid))
    (bytesInt direccionLogica)) (bytesInt marcoFinal)

/-- What is sent for each exit of the translation, and the metric of the exits that reach
the last level. -/
def responderTraduccion (m : Memoria cfg) (p : Proceso cfg) (pid direccionLogica : ℤ) :
    ResultadoTraduccion → List Envio × Memoria cfg
  | .paginaFueraDeRango => (responder OpCode.paginaFueraDeRango.codigo, m)
  | .errorTraduccion => (responder OpCode.errorTraduccion.codigo, m)
  | .marcoNoPresente =>
    ([.paquete (paqueteTraduccion .marcoNoPresente pid direccionLogica (-1))], contar)
  | .traduccionOk marco =>
    ([.paquete (paqueteTraduccion .traduccionOk pid direccionLogica marco)], contar)
where
  contar := conProceso m { p with
    metricas := { p.metricas with accesosTablaPaginas := p.metricas.accesosTablaPaginas + 1 } }

def manejarTraduccionTabla (m : Memoria cfg) (pid direccionLogica : ℤ) : Atencion cfg :=
  match buscarProceso m.diccionarioProcesos pid with
  | none => some (responder OpCode.errorPidNoEncontrado.codigo, m)
  | some p => (traducir p direccionLogica).map (responderTraduccion m p pid direccionLogica)

/-- The metric of an access is counted when the process exists. -/
def contarAcceso (m : Memoria cfg) (pid : ℤ) (f : Metricas → Metricas) : Memoria cfg :=
  match buscarProceso m.diccionarioProcesos pid with
  | none => m
  | some p => conProceso m { p with metricas := f p.metricas }

def manejarLecturaDireccionFisica (m : Memoria cfg) (pid marcoFisico offset tamanio : ℤ) :
    Atencion cfg := do
  let m' := contarAcceso m pid fun x => { x with lecturasMemoria := x.lecturasMemoria + 1 }
  match ← leerMemoriaFisica cfg m'.almacen.memoriaUsuario (direccionFisica cfg marcoFisico offset)
      tamanio with
  | none => return (responder ResultadoEjecucion.errorLecturaMemoria.codigo, m')
  | some datos =>
    return ([.paquete (agregarAPaquete (crearPaquete OpCode.operacionLecturaOk.codigo) datos)], m')

def manejarEscrituraDireccionFisica (m : Memoria cfg) (pid marcoFisico offset tamanio : ℤ)
    (contenido : List Byte) : Atencion cfg := do
  let m' := contarAcceso m pid fun x => { x with escriturasMemoria := x.escriturasMemoria + 1 }
  match ← escribirMemoriaFisica cfg m'.almacen.memoriaUsuario
      (direccionFisica cfg marcoFisico offset) contenido tamanio with
  | none => return (responder ResultadoEjecucion.errorEscrituraMemoria.codigo, m')
  | some memoria =>
    return (responder OpCode.operacionEscrituraOk.codigo,
      conAlmacen m' { m'.almacen with memoriaUsuario := memoria })

end Accesos

section Suspension

def suspenderPaginas (env : Entorno) (a : Almacen) (p : Proceso cfg) : Almacen × Proceso cfg :=
  match p.tablaNivel1 with
  | none => (a, p)
  | some t =>
    let (r, t') := suspenderPaginasRecursivo cfg env.swap ⟨a, p.metricas, 0⟩ t
    (r.almacen, { p with tablaNivel1 := some t', metricas := r.metricas })

def desuspenderPaginas (env : Entorno) (a : Almacen) (p : Proceso cfg) : Almacen × Proceso cfg :=
  match p.tablaNivel1 with
  | none => (a, p)
  | some t =>
    let (r, t') := desuspenderPaginasRecursivo cfg env.swap ⟨a, p.metricas, 0⟩ t
    (r.almacen, { p with tablaNivel1 := some t', metricas := r.metricas })

def conPaginas (m : Memoria cfg) (r : Almacen × Proceso cfg) : Memoria cfg :=
  conProceso (conAlmacen m r.1) r.2

def manejarSuspensionProceso (env : Entorno) (m : Memoria cfg) (pid : ℤ) : Atencion cfg :=
  match buscarProceso m.diccionarioProcesos pid with
  | none => some (responder OpCode.errorPidNoEncontrado.codigo, m)
  | some p =>
    some (responder OpCode.suspensionOk.codigo, conPaginas m (suspenderPaginas env m.almacen p))

def manejarDesuspensionProceso (env : Entorno) (m : Memoria cfg) (pid : ℤ) : Atencion cfg :=
  match buscarProceso m.diccionarioProcesos pid with
  | none => some (responder OpCode.errorPidNoEncontrado.codigo, m)
  | some p =>
    if contarMarcosLibres m.almacen.bitmapMarcos < contarPaginasEnSwap p.tablaNivel1 then
      some (responder OpCode.errorMemoriaInsuficiente.codigo, m)
    else
      some (responder OpCode.desuspensionOk.codigo,
        conPaginas m (desuspenderPaginas env m.almacen p))

def manejarSolicitudDump (env : Entorno) (m : Memoria cfg) (pid : ℤ) : Bool × Memoria cfg :=
  match buscarProceso m.diccionarioProcesos pid with
  | none => (false, m)
  | some p =>
    if env.dumpAbre then
      (true, { m with
        volcados := (pid, dumpearPaginasRecursivo cfg env.swap m.almacen p.tablaNivel1) ::
            m.volcados })
    else (false, m)

end Suspension

/-- The switch of `atender_post_handshake`. The copies of the variable-length fields are
undefined when the announced length is negative or goes past the payload. -/
def atenderPostHandshake (env : Entorno) (m : Memoria cfg) : Peticion → Atencion cfg
  | .pedirInstrucciones pid pc => enviarInstruccionSegunPidYPc m pid pc
  | .pedirEspacioLibre => enviarEspacioLibre m
  | .initProc pid tamanio largoPath path =>
    if largoPath < 0 ∨ (path.length : ℤ) < largoPath then none
    else almacenarProcesoNuevo env m pid tamanio (path.take largoPath.toNat)
  | .traducirTabla pid dl => manejarTraduccionTabla m pid dl
  | .finalizarProceso pid => some (responder OpCode.finalizacionOk.codigo, destruirProceso m pid)
  | .leerMemoria pid marco offset tamanio => manejarLecturaDireccionFisica m pid marco
    offset tamanio
  | .escribirMemoria pid marco offset tamanio contenido =>
    if tamanio < 0 ∨ (contenido.length : ℤ) < tamanio then none
    else manejarEscrituraDireccionFisica m pid marco offset tamanio (contenido.take tamanio.toNat)
  | .suspenderProceso pid => manejarSuspensionProceso env m pid
  | .desuspenderProceso pid => manejarDesuspensionProceso env m pid
  | .dumpMemory pid =>
    let (exito, m') := manejarSolicitudDump env m pid
    let op := if exito then OpCode.dumpOk else OpCode.errorDump
    some ([.paquete (agregarAPaquete (crearPaquete op.codigo) (bytesInt pid))], m')

section Ejecuciones

/-- A request whose `INIT_PROC` carries a PID that no live process has. -/
def PidFresco (m : Memoria cfg) : Peticion → Prop
  | .initProc pid _ _ _ => buscarProceso m.diccionarioProcesos pid = none
  | _ => True

/-- One request handled to completion, under a condition on the step. -/
def Paso (P : Memoria cfg → Entorno → Peticion → Memoria cfg → Prop) (m m' : Memoria cfg) : Prop :=
  ∃ env pet envios, PidFresco m pet ∧ atenderPostHandshake env m pet = some (envios, m') ∧
    P m env pet m'

/-- States after any finite sequence of requests handled one at a time, every one of
which meets the condition. -/
inductive AlcanzableCon (P : Memoria cfg → Entorno → Peticion → Memoria cfg → Prop) :
    Memoria cfg → Prop
  | inicial : AlcanzableCon P (inicial cfg)
  | paso {m m'} : AlcanzableCon P m → Paso P m m' → AlcanzableCon P m'

/-- States after any finite sequence of requests, with any outcome of the file operations. -/
abbrev Alcanzable (m : Memoria cfg) : Prop := AlcanzableCon (fun _ _ _ _ => True) m

/-- The rule of invariants: true at the start and kept by every step. -/
theorem alcanzable_invariante {P : Memoria cfg → Entorno → Peticion → Memoria cfg → Prop}
    {Inv : Memoria cfg → Prop} (h₀ : Inv (inicial cfg))
    (hpaso : ∀ m m', Inv m → Paso P m m' → Inv m') {m : Memoria cfg} (h : AlcanzableCon P m) :
    Inv m := by
  induction h with
  | inicial => exact h₀
  | paso _ hp ih => exact hpaso _ _ ih hp

instance (m : Memoria cfg) (pet : Peticion) : Decidable (PidFresco m pet) := by
  cases pet <;> unfold PidFresco <;> first
    | exact decidable_of_iff _ Option.isNone_iff_eq_none
    | infer_instance

/-- A run as a function of its requests and of what the operating system answers. -/
def ejecutar (m : Memoria cfg) : List (Entorno × Peticion) → Option (Memoria cfg)
  | [] => some m
  | (env, pet) :: resto =>
    if PidFresco m pet then (atenderPostHandshake env m pet).bind fun r => ejecutar r.2 resto
    else none

theorem alcanzableCon_ejecutar {Q : Entorno → Prop} {m m' : Memoria cfg}
    (pasos : List (Entorno × Peticion)) (hQ : ∀ p ∈ pasos, Q p.1)
    (h : AlcanzableCon (fun _ env _ _ => Q env) m) (hrun : ejecutar m pasos = some m') :
    AlcanzableCon (fun _ env _ _ => Q env) m' := by
  induction pasos generalizing m with
  | nil =>
    cases hrun
    exact h
  | cons p resto ih =>
    obtain ⟨env, pet⟩ := p
    unfold ejecutar at hrun
    split at hrun
    · rename_i hf
      obtain ⟨⟨envios, m₁⟩, hat, hresto⟩ := Option.bind_eq_some_iff.mp hrun
      have hpaso : Paso (fun _ env _ _ => Q env) m m₁ :=
        ⟨env, pet, envios, hf, hat, hQ _ List.mem_cons_self⟩
      exact ih (fun p hp => hQ p (List.mem_cons_of_mem _ hp)) (.paso h hpaso) hresto
    · cases hrun

theorem alcanzableCon_paso {P : Memoria cfg → Entorno → Peticion → Memoria cfg → Prop}
    {m m' : Memoria cfg} {env : Entorno} {pet : Peticion} (h : AlcanzableCon P m)
    (hrun : ejecutar m [(env, pet)] = some m') (hP : P m env pet m') : AlcanzableCon P m' := by
  simp only [ejecutar] at hrun
  split at hrun
  · rename_i hf
    obtain ⟨⟨envios, m₁⟩, hat, hfin⟩ := Option.bind_eq_some_iff.mp hrun
    cases hfin
    exact .paso h ⟨env, pet, envios, hf, hat, hP⟩
  · cases hrun

theorem alcanzable_ejecutar {m m' : Memoria cfg} (pasos : List (Entorno × Peticion))
    (h : Alcanzable m) (hrun : ejecutar m pasos = some m') : Alcanzable m' :=
  alcanzableCon_ejecutar pasos (fun _ _ => trivial) h hrun

end Ejecuciones

section Ejemplo

/-- Four frames of four bytes, and page tables of two levels with two entries each. -/
def configEjemplo : Config := crearConfig [] 16 4 2 2 (by decide)

def accesoCorrecto : AccesoSwap := ⟨true, true, 4096, fun _ => false, fun _ => 0⟩

/-- Every file exists, every program is one `EXIT`, and no file operation fails. -/
def entornoEjemplo : Entorno := ⟨fun _ => some [69, 88, 73, 84, 10], true, fun _ => accesoCorrecto⟩

end Ejemplo

end MemoriaPeticiones

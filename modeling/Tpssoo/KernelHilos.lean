import Tpssoo.KernelFunciones
import Tpssoo.Entrelazado

/-!
# The threads of the kernel

Each thread of `kernel.c` as the points where it may be overtaken: before it takes
`mutex_colas`, before it touches shared data without that lock, while it waits for a
semaphore, for Memoria or for a packet. What lies between two points is one action. A
`sem_post` goes with what comes before it. The CPU modules run in the same pool.
-/
namespace KernelHilos

open EnterosC Protocolo KernelEstado KernelFunciones Entrelazado Tartamudeo

/-- A CPU module: what it has read of its two connections, the burst it executes, with its
number and PID, and `INTERRUPCION_PENDIENTE`, as the bursts whose interrupts set it. -/
structure ModuloCpu where
  fdDispatch : ℕ
  fdInterrupt : ℕ
  leidos : ℕ
  leidosInterrupt : ℕ
  rafaga : Option (ℕ × ℤ)
  esperaInit : Bool
  interrupcionPendiente : List (Option ℕ × ℕ)
  deriving DecidableEq, Repr

inductive Hilo where
  | aceptaCpus
  | aceptaIos
  | reloj
  -- planificador_largo_plazo_fifo, planificador_largo_plazo_proceso_mas_chico_primero
  | largoArranca
  | largoEspera
  | largoElige
  | largoPide (pcb : ℤ) (vieneDeSusp : Bool)
  | largoAguarda (pcb : ℤ) (vieneDeSusp : Bool)
  | largoResuelve (pcb : ℤ) (vieneDeSusp : Bool) (ok : Bool)
  -- planificador_corto_plazo
  | cortoEspera
  | cortoEsperaCpu
  | cortoElige
  -- gestionar_procesos_finalizados
  | gestorEspera
  | gestorToma
  | gestorPide (pcb : ℤ)
  | gestorAguarda (pcb : ℤ)
  | gestorLibera (pcb : ℤ) (ok : Bool)
  -- hilo_suspension_proceso: since when it sleeps, and which of the blockings started it
  | suspensionDuerme (pid : ℤ) (desde : ℤ) (bloqueo : ℕ)
  | suspensionPide (pid : ℤ)
  | suspensionAguarda (pid : ℤ)
  | suspensionResuelve (ok : Bool)
  -- hilo_manejador_dump
  | dumpPide (pcb : ℤ)
  | dumpAguarda (pcb : ℤ)
  | dumpResuelve (pcb : ℤ) (ok : Bool)
  | dumpFinaliza (pcb : ℤ)
  | dumpFinalizaTomado (pcb : ℤ)
  -- atender_conexion_cpu, and the handshake of the interrupt connection
  | cpuRegistra (fd : ℕ) (nombre : List Byte)
  | cpuResponde (fd : ℕ) (cpu : ℕ)
  | interruptRegistra (fd : ℕ) (nombre : List Byte)
  | interruptResponde (fd : ℕ)
  -- atender_respuestas_cpu
  | escuchaRecibe (cpu : ℕ) (fd : Option ℕ)
  | escuchaAgregaExit (cpu : ℕ) (pcb : ℤ)
  | escuchaCambiaExit (cpu : ℕ) (pcb : ℤ)
  | escuchaBloquea (cpu : ℕ) (pcb : ℤ) (dispositivo : List Byte) (duracion : ℤ)
  | escuchaEncola (cpu : ℕ) (pcb : ℤ) (grupo : ℕ) (duracion : ℤ)
  | escuchaSinDispositivo (cpu : ℕ) (pcb : ℤ)
  | escuchaBloqueaDump (cpu : ℕ) (pcb : ℤ)
  | escuchaAgregaReady (cpu : ℕ) (pcb : ℤ)
  | escuchaCambiaReady (cpu : ℕ) (pcb : ℤ)
  | escuchaDesaloja (cpu : ℕ) (pcb : ℤ)
  | escuchaFinaliza (cpu : ℕ) (pcb : ℤ)
  | escuchaFinalizaAgrega (cpu : ℕ) (pcb : ℤ)
  | escuchaLibera (cpu : ℕ)
  | escuchaQuita (cpu : ℕ)
  | escuchaRevisa (cpu : ℕ)
  | escuchaFinalizaTomado (cpu : ℕ) (pcb : ℤ)
  | escuchaCierra (cpu : ℕ)
  -- handshake_kernel_con_mensaje with an IO module, and hilo_escucha_io
  | ioRegistra (fd : ℕ) (nombre : List Byte)
  | ioResponde (fd : ℕ) (grupo : ℕ)
  | ioDespacha (grupo : ℕ)
  | escuchaIo (fd : ℕ) (nombre : List Byte) (terminadas : ℕ)
  | ioFinaliza (pcbs : List ℤ)
  | ioFinalizaAgrega (pcb : ℤ) (resto : List ℤ)
  -- the CPU modules
  | moduloSaluda (fd : ℕ) (nombre : List Byte)
  | moduloSaludaInterrupt (fd : ℕ) (fdInterrupt : ℕ)
  | modulo (m : ModuloCpu)
  deriving DecidableEq, Repr

inductive Accion where
  | conectaCpu (nombre : List Byte)
  | conectaIo (nombre : List Byte)
  | pasaTiempo (ms : ℕ)
  | largoArranca
  | largoDespierta
  | largoElige
  | largoFallaConexion (pcb : ℤ) (vieneDeSusp : Bool)
  | largoEnvia (pcb : ℤ) (vieneDeSusp : Bool)
  | largoRecibe (pcb : ℤ) (vieneDeSusp : Bool) (ok : Bool)
  | largoResuelve (pcb : ℤ) (vieneDeSusp : Bool) (ok : Bool)
  | cortoTomaReady
  | cortoTomaCpu
  | cortoPlanifica
  | gestorDespierta
  | gestorToma
  | gestorFallaConexion (pcb : ℤ)
  | gestorEnvia (pcb : ℤ)
  | gestorRecibe (pcb : ℤ) (ok : Bool)
  | gestorLibera (pcb : ℤ) (ok : Bool)
  | suspensionVence (pid : ℤ) (desde : ℤ) (bloqueo : ℕ)
  | suspensionFallaConexion (pid : ℤ)
  | suspensionEnvia (pid : ℤ)
  | suspensionRecibe (pid : ℤ) (ok : Bool)
  | suspensionResuelve (ok : Bool)
  | dumpFallaConexion (pcb : ℤ)
  | dumpEnvia (pcb : ℤ)
  | dumpRecibe (pcb : ℤ) (ok : Bool)
  | dumpResuelve (pcb : ℤ) (ok : Bool)
  | dumpFinaliza (pcb : ℤ)
  | dumpFinalizaTomado (pcb : ℤ)
  | cpuRegistra (fd : ℕ) (nombre : List Byte)
  | cpuResponde (fd : ℕ) (cpu : ℕ)
  | interruptRegistra (fd : ℕ) (nombre : List Byte)
  | interruptResponde (fd : ℕ)
  | recibeInitProc (cpu fd : ℕ) (path : List Byte) (tamanio : ℤ) (absoluto : Option (List Byte))
  | recibeRespuesta (cpu fd : ℕ) (pid programCounter : ℤ) (motivo : Motivo)
  | recibeOtro (cpu fd : ℕ)
  | recibeNull (cpu : ℕ) (fd : Option ℕ)
  | escuchaAgregaExit (cpu : ℕ) (pcb : ℤ)
  | escuchaCambiaExit (cpu : ℕ) (pcb : ℤ)
  | escuchaBloquea (cpu : ℕ) (pcb : ℤ) (dispositivo : List Byte) (duracion : ℤ)
  | escuchaEncola (cpu : ℕ) (pcb : ℤ) (grupo : ℕ) (duracion : ℤ)
  | escuchaSinDispositivo (cpu : ℕ) (pcb : ℤ)
  | escuchaBloqueaDump (cpu : ℕ) (pcb : ℤ)
  | escuchaAgregaReady (cpu : ℕ) (pcb : ℤ)
  | escuchaCambiaReady (cpu : ℕ) (pcb : ℤ)
  | escuchaDesaloja (cpu : ℕ) (pcb : ℤ)
  | escuchaFinaliza (cpu : ℕ) (pcb : ℤ)
  | escuchaFinalizaAgrega (cpu : ℕ) (pcb : ℤ)
  | escuchaLibera (cpu : ℕ)
  | escuchaQuita (cpu : ℕ)
  | escuchaRevisa (cpu : ℕ)
  | escuchaFinalizaTomado (cpu : ℕ) (pcb : ℤ)
  | escuchaCierra (cpu : ℕ)
  | ioRegistra (fd : ℕ) (nombre : List Byte)
  | ioResponde (fd : ℕ) (grupo : ℕ)
  | ioDespacha (grupo : ℕ)
  | ioTermina (fd : ℕ) (nombre : List Byte) (terminadas : ℕ) (pid : ℤ)
  | ioDesconecta (fd : ℕ) (nombre : List Byte) (terminadas : ℕ)
  | ioFinaliza (pcb : ℤ) (resto : List ℤ)
  | ioFinalizaAgrega (pcb : ℤ) (resto : List ℤ)
  | ioFinalizaFin
  | moduloSaluda (fd : ℕ) (nombre : List Byte)
  | moduloSaludaInterrupt (fd : ℕ) (fdInterrupt : ℕ)
  | moduloAborta (fd : ℕ) (nombre : List Byte)
  | moduloAbortaInterrupt (fd : ℕ) (fdInterrupt : ℕ)
  | moduloLee (m : ModuloCpu)
  | moduloInterrumpe (m : ModuloCpu)
  | moduloInitProc (m : ModuloCpu) (path : List Byte) (tamanio : ℤ)
  | moduloTermina (m : ModuloCpu) (programCounter : ℤ) (motivo : Motivo)
  | moduloFallaFetch (m : ModuloCpu) (programCounter : ℤ)
  | moduloDesconecta (m : ModuloCpu)
  deriving DecidableEq, Repr

/-- One action: where its thread must be, when it may happen, what it changes and where it
leaves its thread, with those that it starts. -/
structure Transicion where
  origen : Hilo
  guarda : Kernel → Bool := fun _ => true
  efecto : Kernel → Kernel := id
  destino : Kernel → List Hilo

section Auxiliares

variable (k : Kernel)

def libre : Bool := k.mutexColas.isNone

def conexionNueva : Kernel := { k with totalConexiones := k.totalConexiones + 1 }

/-- `buscar_cpu_por_nombre`. -/
def buscarCpuPorNombre (nombre : List Byte) : Option ℕ :=
  k.listaCpus.find? fun c => (k.cpus c).nombre = nombre

/-- The CPU of a dispatch connection: the one of that name, or a new one. -/
def cpuDe (nombre : List Byte) : ℕ := (buscarCpuPorNombre k nombre).getD k.totalCpus

/-- `atender_conexion_cpu` under `mutex_cpu`, and its `sem_post`. -/
def registrarCpu (fd : ℕ) (nombre : List Byte) : Kernel :=
  let k₁ : Kernel :=
    match buscarCpuPorNombre k nombre with
    | some _ => k
    | none =>
      { k with
        cpus := Function.update k.cpus k.totalCpus ⟨nombre, none, none, false, none⟩
        listaCpus := k.listaCpus ++ [k.totalCpus]
        totalCpus := k.totalCpus + 1 }
  (k₁.conCpu (cpuDe k nombre) fun x =>
    { x with socketDispatch := some fd, cpuLibre := true, pcbEnEjecucion := none }).postCpuLibre

def recibir (fd : ℕ) : Kernel :=
  { k with entrantes := Function.update k.entrantes fd (k.entrantes fd).tail }

def entregar (fd : ℕ) (p : PaqueteCpu) : Kernel :=
  { k with entrantes := Function.update k.entrantes fd (k.entrantes fd ++ [p]) }

/-- The switch on the motive, once the PCB has left `cola_exec`. -/
def segunMotivo (cpu : ℕ) (pcb : ℤ) : Motivo → Hilo
  | .exit => .escuchaAgregaExit cpu pcb
  | .bloqueanteIo dispositivo duracion => .escuchaBloquea cpu pcb dispositivo duracion
  | .bloqueanteDumpMemory => .escuchaBloqueaDump cpu pcb
  | .interrupcion => .escuchaAgregaReady cpu pcb
  | .errorSegFault | .otro => .escuchaFinaliza cpu pcb

/-- `OP_RESPUESTA_EJECUCION` up to the removal from `cola_exec`. -/
def recibirRespuesta (c : ConfigKernel) (cpu fd : ℕ) (pid programCounter : ℤ) (motivo : Motivo) :
    Kernel :=
  match (k.cpus cpu).pcbEnEjecucion with
  | none => k.roto
  | some pcb =>
    match k.pcbs pcb with
    | none => k.roto
    | some p =>
      if p.pid ≠ pid then (recibir k fd).quitar .running pcb
      else ((recibir k fd).conPcb pcb
        (actualizarRafaga c k.reloj programCounter motivo)).quitar .running pcb

def trasRespuesta (cpu : ℕ) (pid : ℤ) (motivo : Motivo) : List Hilo :=
  match (k.cpus cpu).pcbEnEjecucion with
  | none => []
  | some pcb =>
    match k.pcbs pcb with
    | none => []
    | some p => if p.pid ≠ pid then [.escuchaFinaliza cpu pcb] else [segunMotivo cpu pcb motivo]

/-- `hilo_manejador_dump` after the answer of Memoria. When the dump failed,
`finalizar_proceso` is called with `mutex_colas` taken. -/
def resolverDump (pcb : ℤ) (ok : Bool) : Kernel :=
  match k.pcbs pcb with
  | none => k.roto
  | some p =>
    if ok then terminarDump k p.pid
    else
      match buscarPcbPorPid k p.pid with
      | none => k.roto
      | some none => k
      | some (some q) =>
        { (quitarBloqueado k q).cambiarEstado q .exit with mutexColas := some (.dump pcb) }

def trasDump (pcb : ℤ) (ok : Bool) : List Hilo :=
  match (k.pcbs pcb).bind fun p => buscarPcbPorPid k p.pid with
  | some (some q) => if ok then [] else [.dumpFinalizaTomado q]
  | _ => []

/-- What an IO module is asked next: nothing before `HANDSHAKE_OK`, with which it starts. -/
def pedidoIo (fd terminadas : ℕ) : Option ℤ :=
  match k.enviados (.io fd) with
  | .handshakeOk :: resto =>
    match resto[terminadas]? with
    | some (.io _ sol) => some sol.pid
    | _ => none
  | _ => none

/-- The time that `usleep(tiempo_suspension_ms * 1000)` lasts, in milliseconds. -/
def demora (c : ConfigKernel) : ℤ := aInt (c.tiempoSuspension * 1000) % 2 ^ 32 / 1000

def esInterrupcion : Mensaje → Option (Option ℕ × ℕ)
  | .procesoInterrupcion conexion rafaga => some (conexion, rafaga)
  | _ => none

/-- A packet on the dispatch connection of a CPU that waits for one. -/
def ModuloCpu.leer (m : ModuloCpu) (mensajes : List Mensaje) : ModuloCpu :=
  match mensajes[m.leidos]? with
  | some (.opPcb p) =>
    if m.esperaInit then { m with leidos := m.leidos + 1, esperaInit := false }
    else
      { m with
        leidos := m.leidos + 1
        rafaga := some (rafagaDe (mensajes.take (m.leidos + 1)), p.pid) }
  | some _ => { m with leidos := m.leidos + 1, esperaInit := false }
  | none => m

def ModuloCpu.interrumpir (m : ModuloCpu) (mensajes : List Mensaje) : ModuloCpu :=
  match mensajes[m.leidosInterrupt]? with
  | some x =>
    { m with
      leidosInterrupt := m.leidosInterrupt + 1
      interrupcionPendiente := m.interrupcionPendiente ++ (esInterrupcion x).toList }
  | none => m

/-- The motive after the check of `INTERRUPCION_PENDIENTE`. -/
def motivoFinal (m : ModuloCpu) (motivo : Motivo) : Motivo :=
  if m.interrupcionPendiente = [] then motivo else .interrupcion

/-- How many times a process has been blocked. -/
def ingresosABlocked (pcb : ℤ) : ℕ :=
  ((k.pcbs pcb).map fun p => p.metricas.ingresosABlocked).getD 0

def ModuloCpu.pid (m : ModuloCpu) : ℤ := (m.rafaga.map Prod.snd).getD 0

end Auxiliares

/-- The table of actions. -/
def transicion (c : ConfigKernel) : Accion → Transicion
  | .conectaCpu nombre =>
    { origen := .aceptaCpus
      efecto := conexionNueva
      destino := fun k => [.aceptaCpus, .cpuRegistra k.totalConexiones nombre,
        .moduloSaluda k.totalConexiones nombre] }
  | .conectaIo nombre =>
    { origen := .aceptaIos
      efecto := conexionNueva
      destino := fun k => [.aceptaIos, .ioRegistra k.totalConexiones nombre] }
  | .pasaTiempo ms =>
    { origen := .reloj
      efecto := fun k => { k with reloj := k.reloj + ms }
      destino := fun _ => [.reloj] }
  | .largoArranca =>
    { origen := .largoArranca
      guarda := fun k => k.cpuConectada
      destino := fun _ => [.largoEspera] }
  | .largoDespierta =>
    { origen := .largoEspera
      guarda := fun k => 0 < k.semProcesosEnNewOMemoriaLibre
      efecto := fun k =>
        { k with semProcesosEnNewOMemoriaLibre := k.semProcesosEnNewOMemoriaLibre - 1 }
      destino := fun _ => [.largoElige] }
  | .largoElige =>
    { origen := .largoElige
      guarda := libre
      efecto := elegirCandidato c
      destino := fun k =>
        match (ordenLargoPlazo c k (colaAAdmitir k)).head? with
        | none => [.largoEspera]
        | some pcb => [.largoPide pcb (colaAAdmitir k = .suspendedReady)] }
  | .largoFallaConexion pcb susp =>
    { origen := .largoPide pcb susp
      destino := fun _ => [.largoResuelve pcb susp false] }
  | .largoEnvia pcb susp =>
    { origen := .largoPide pcb susp
      efecto := fun k => if (k.pcbs pcb).isNone then k.roto else k
      destino := fun _ => [.largoAguarda pcb susp] }
  | .largoRecibe pcb susp ok =>
    { origen := .largoAguarda pcb susp
      destino := fun _ => [.largoResuelve pcb susp ok] }
  | .largoResuelve pcb susp ok =>
    { origen := .largoResuelve pcb susp ok
      guarda := libre
      efecto := fun k => if ok then admitir c k pcb susp else k
      destino := fun _ => if ok then [.largoElige] else [.largoEspera] }
  | .cortoTomaReady =>
    { origen := .cortoEspera
      guarda := fun k => 0 < k.semProcesosReady
      efecto := fun k => { k with semProcesosReady := k.semProcesosReady - 1 }
      destino := fun _ => [.cortoEsperaCpu] }
  | .cortoTomaCpu =>
    { origen := .cortoEsperaCpu
      guarda := fun k => 0 < k.semCpuLibre
      efecto := fun k => { k with semCpuLibre := k.semCpuLibre - 1 }
      destino := fun _ => [.cortoElige] }
  | .cortoPlanifica =>
    { origen := .cortoElige
      guarda := libre
      efecto := planificarCortoPlazo c
      destino := fun _ => [.cortoEspera] }
  | .gestorDespierta =>
    { origen := .gestorEspera
      guarda := fun k => 0 < k.semProcesosEnExit
      efecto := fun k => { k with semProcesosEnExit := k.semProcesosEnExit - 1 }
      destino := fun _ => [.gestorToma] }
  | .gestorToma =>
    { origen := .gestorToma
      guarda := libre
      efecto := fun k =>
        match k.colas .exit with
        | [] => k
        | pcb :: resto =>
          { k with colas := Function.update k.colas .exit resto }.cambiarEstado pcb .exit
      destino := fun k =>
        match k.colas .exit with
        | [] => [.gestorEspera]
        | pcb :: _ => [.gestorPide pcb] }
  | .gestorFallaConexion pcb =>
    { origen := .gestorPide pcb
      destino := fun _ => [.gestorLibera pcb false] }
  | .gestorEnvia pcb =>
    { origen := .gestorPide pcb
      efecto := fun k => if (k.pcbs pcb).isNone then k.roto else k
      destino := fun _ => [.gestorAguarda pcb] }
  | .gestorRecibe pcb ok =>
    { origen := .gestorAguarda pcb
      destino := fun _ => [.gestorLibera pcb ok] }
  | .gestorLibera pcb ok =>
    { origen := .gestorLibera pcb ok
      efecto := fun k =>
        if (k.pcbs pcb).isNone then k.roto
        else
          let k₁ := if ok then k.postNewOMemoria else k
          { k₁ with pcbs := Function.update k₁.pcbs pcb none }
      destino := fun _ => [.gestorEspera] }
  | .suspensionVence pid desde bloqueo =>
    { origen := .suspensionDuerme pid desde bloqueo
      guarda := fun k => libre k && decide (desde + demora c ≤ k.reloj)
      efecto := fun k =>
        match buscarPcbPorPid k pid with
        | none => k.roto
        | some none => k
        | some (some pcb) => if estadoDe k pcb = some .blocked then suspender k pcb else k
      destino := fun k =>
        match buscarPcbPorPid k pid with
        | some (some pcb) =>
          if estadoDe k pcb = some .blocked then [.suspensionPide pid] else []
        | _ => [] }
  | .suspensionFallaConexion pid =>
    { origen := .suspensionPide pid
      destino := fun _ => [] }
  | .suspensionEnvia pid =>
    { origen := .suspensionPide pid
      destino := fun _ => [.suspensionAguarda pid] }
  | .suspensionRecibe pid ok =>
    { origen := .suspensionAguarda pid
      destino := fun _ => [.suspensionResuelve ok] }
  | .suspensionResuelve ok =>
    { origen := .suspensionResuelve ok
      efecto := fun k => if ok then k.postNewOMemoria else k
      destino := fun _ => [] }
  | .dumpFallaConexion pcb =>
    -- `finalizar_proceso` changes the state before it takes the lock
    { origen := .dumpPide pcb
      efecto := fun k => k.cambiarEstado pcb .exit
      destino := fun _ => [.dumpFinaliza pcb] }
  | .dumpEnvia pcb =>
    { origen := .dumpPide pcb
      efecto := fun k => if (k.pcbs pcb).isNone then k.roto else k
      destino := fun _ => [.dumpAguarda pcb] }
  | .dumpRecibe pcb ok =>
    { origen := .dumpAguarda pcb
      destino := fun _ => [.dumpResuelve pcb ok] }
  | .dumpResuelve pcb ok =>
    { origen := .dumpResuelve pcb ok
      guarda := libre
      efecto := fun k => resolverDump k pcb ok
      destino := fun k => trasDump k pcb ok }
  | .dumpFinaliza pcb =>
    { origen := .dumpFinaliza pcb
      guarda := libre
      efecto := fun k => agregarAExit k pcb
      destino := fun _ => [] }
  | .dumpFinalizaTomado pcb =>
    { origen := .dumpFinalizaTomado pcb
      guarda := libre
      efecto := fun k => agregarAExit k pcb
      destino := fun _ => [] }
  | .cpuRegistra fd nombre =>
    { origen := .cpuRegistra fd nombre
      efecto := fun k => registrarCpu k fd nombre
      destino := fun k => [.cpuResponde fd (cpuDe k nombre)] }
  | .cpuResponde fd cpu =>
    { origen := .cpuResponde fd cpu
      efecto := fun k => k.enviar (.dispatch fd) .handshakeOk
      destino := fun k => [.escuchaRecibe cpu (k.cpus cpu).socketDispatch] }
  | .interruptRegistra fd nombre =>
    { origen := .interruptRegistra fd nombre
      efecto := fun k =>
        match buscarCpuPorNombre k nombre with
        | some cpu => k.conCpu cpu fun x => { x with socketInterrupt := some fd }
        | none => k
      destino := fun _ => [.interruptResponde fd] }
  | .interruptResponde fd =>
    { origen := .interruptResponde fd
      efecto := fun k => { k.enviar (.interrupt fd) .handshakeOk with cpuConectada := true }
      destino := fun _ => [] }
  | .recibeInitProc cpu fd path tamanio absoluto =>
    { origen := .escuchaRecibe cpu (some fd)
      guarda := fun k => libre k && decide ((k.entrantes fd).head? = some (.initProc path tamanio))
      efecto := fun k =>
        let k₁ := crearPcb c (recibir k fd) path tamanio absoluto
        match (k₁.cpus cpu).socketDispatch with
        | some fd' => k₁.enviar (.dispatch fd') .initProcesoOk
        | none => k₁
      destino := fun k => [.escuchaRecibe cpu (k.cpus cpu).socketDispatch] }
  | .recibeRespuesta cpu fd pid programCounter motivo =>
    { origen := .escuchaRecibe cpu (some fd)
      guarda := fun k =>
        decide ((k.entrantes fd).head? = some (.respuestaEjecucion pid programCounter motivo))
      efecto := fun k => recibirRespuesta k c cpu fd pid programCounter motivo
      destino := fun k => trasRespuesta k cpu pid motivo }
  | .recibeOtro cpu fd =>
    { origen := .escuchaRecibe cpu (some fd)
      guarda := fun k => decide ((k.entrantes fd).head? = some .otro)
      efecto := fun k =>
        match (k.cpus cpu).pcbEnEjecucion with
        | none => recibir k fd
        | some pcb => (recibir k fd).quitar .running pcb
      destino := fun k =>
        match (k.cpus cpu).pcbEnEjecucion with
        | none => [.escuchaLibera cpu]
        | some pcb => [.escuchaFinaliza cpu pcb] }
  | .recibeNull cpu fd =>
    -- `sem_trywait` takes a ticket if there is one
    { origen := .escuchaRecibe cpu fd
      guarda := fun k =>
        match fd with
        | some fd => (k.entrantes fd).isEmpty && k.cerrados fd
        | none => true
      efecto := fun k => { k with semCpuLibre := k.semCpuLibre - 1 }
      destino := fun _ => [.escuchaQuita cpu] }
  | .escuchaAgregaExit cpu pcb =>
    { origen := .escuchaAgregaExit cpu pcb
      efecto := fun k => k.agregar .exit pcb
      destino := fun _ => [.escuchaCambiaExit cpu pcb] }
  | .escuchaCambiaExit cpu pcb =>
    { origen := .escuchaCambiaExit cpu pcb
      efecto := fun k => (k.cambiarEstado pcb .exit).postExit
      destino := fun _ => [.escuchaLibera cpu] }
  | .escuchaBloquea cpu pcb dispositivo duracion =>
    { origen := .escuchaBloquea cpu pcb dispositivo duracion
      guarda := libre
      efecto := fun k =>
        match buscarGrupo k dispositivo with
        | none => k.quitar .running pcb
        | some _ => bloquearPorIo k pcb duracion
      destino := fun k =>
        match buscarGrupo k dispositivo with
        | none => [.escuchaSinDispositivo cpu pcb]
        | some g => [.escuchaEncola cpu pcb g.id duracion, .suspensionDuerme pcb k.reloj
            (ingresosABlocked (bloquearPorIo k pcb duracion) pcb)] }
  | .escuchaEncola cpu pcb grupo duracion =>
    { origen := .escuchaEncola cpu pcb grupo duracion
      efecto := fun k => encolarSolicitud k grupo pcb duracion
      destino := fun _ => [.escuchaLibera cpu] }
  | .escuchaSinDispositivo cpu pcb =>
    { origen := .escuchaSinDispositivo cpu pcb
      efecto := fun k => k.quitar .running pcb
      destino := fun _ => [.escuchaFinaliza cpu pcb] }
  | .escuchaBloqueaDump cpu pcb =>
    { origen := .escuchaBloqueaDump cpu pcb
      guarda := libre
      efecto := fun k => bloquearProcesoPorDump k pcb
      destino := fun _ => [.escuchaLibera cpu, .dumpPide pcb] }
  | .escuchaAgregaReady cpu pcb =>
    { origen := .escuchaAgregaReady cpu pcb
      efecto := fun k => k.agregar .ready pcb
      destino := fun _ => [.escuchaCambiaReady cpu pcb] }
  | .escuchaCambiaReady cpu pcb =>
    { origen := .escuchaCambiaReady cpu pcb
      efecto := fun k => (k.cambiarEstado pcb .ready).postReady
      destino := fun _ => [.escuchaDesaloja cpu pcb] }
  | .escuchaDesaloja cpu pcb =>
    { origen := .escuchaDesaloja cpu pcb
      efecto := fun k => desalojarSiEsNecesarioSrt c k pcb
      destino := fun _ => [.escuchaLibera cpu] }
  | .escuchaFinaliza cpu pcb =>
    { origen := .escuchaFinaliza cpu pcb
      efecto := fun k => k.cambiarEstado pcb .exit
      destino := fun _ => [.escuchaFinalizaAgrega cpu pcb] }
  | .escuchaFinalizaAgrega cpu pcb =>
    { origen := .escuchaFinalizaAgrega cpu pcb
      guarda := libre
      efecto := fun k => agregarAExit k pcb
      destino := fun _ => [.escuchaLibera cpu] }
  | .escuchaLibera cpu =>
    { origen := .escuchaLibera cpu
      efecto := fun k =>
        (k.conCpu cpu fun x => { x with pcbEnEjecucion := none, cpuLibre := true }).postCpuLibre
      destino := fun k => [.escuchaRecibe cpu (k.cpus cpu).socketDispatch] }
  | .escuchaQuita cpu =>
    { origen := .escuchaQuita cpu
      efecto := fun k => { k with listaCpus := k.listaCpus.erase cpu }
      destino := fun _ => [.escuchaRevisa cpu] }
  | .escuchaRevisa cpu =>
    -- `finalizar_proceso` is called with `mutex_colas` taken
    { origen := .escuchaRevisa cpu
      guarda := libre
      efecto := fun k =>
        match (k.cpus cpu).pcbEnEjecucion with
        | none => k
        | some pcb =>
          { (k.quitar .running pcb).cambiarEstado pcb .exit with
            mutexColas := some (.escuchaCpu cpu) }
      destino := fun k =>
        match (k.cpus cpu).pcbEnEjecucion with
        | none => [.escuchaCierra cpu]
        | some pcb => [.escuchaFinalizaTomado cpu pcb] }
  | .escuchaFinalizaTomado cpu pcb =>
    { origen := .escuchaFinalizaTomado cpu pcb
      guarda := libre
      efecto := fun k => (agregarAExit k pcb).conCpu cpu fun x => { x with pcbEnEjecucion := none }
      destino := fun _ => [.escuchaCierra cpu] }
  | .escuchaCierra cpu =>
    { origen := .escuchaCierra cpu
      efecto := fun k => k.conCpu cpu fun x => { x with cpuLibre := false, socketDispatch := none }
      destino := fun _ => [] }
  | .ioRegistra fd nombre =>
    { origen := .ioRegistra fd nombre
      guarda := libre
      efecto := fun k => (registrarInstancia k nombre fd).1
      destino := fun k => [.ioResponde fd (registrarInstancia k nombre fd).2,
          .escuchaIo fd nombre 0] }
  | .ioResponde fd grupo =>
    { origen := .ioResponde fd grupo
      efecto := fun k => k.enviar (.io fd) .handshakeOk
      destino := fun _ => [.ioDespacha grupo] }
  | .ioDespacha grupo =>
    { origen := .ioDespacha grupo
      efecto := fun k => despacharGrupo k grupo
      destino := fun _ => [] }
  | .ioTermina fd nombre terminadas pid =>
    { origen := .escuchaIo fd nombre terminadas
      guarda := fun k => libre k && decide (pedidoIo k fd terminadas = some pid)
      efecto := fun k => manejarFinIo c k pid fd
      destino := fun _ => [.escuchaIo fd nombre (terminadas + 1)] }
  | .ioDesconecta fd nombre terminadas =>
    { origen := .escuchaIo fd nombre terminadas
      guarda := libre
      efecto := fun k => (manejarDesconexionIo k nombre fd).1
      destino := fun k => [.ioFinaliza (manejarDesconexionIo k nombre fd).2] }
  | .ioFinaliza pcb resto =>
    { origen := .ioFinaliza (pcb :: resto)
      efecto := fun k => k.cambiarEstado pcb .exit
      destino := fun _ => [.ioFinalizaAgrega pcb resto] }
  | .ioFinalizaAgrega pcb resto =>
    { origen := .ioFinalizaAgrega pcb resto
      guarda := libre
      efecto := fun k => agregarAExit k pcb
      destino := fun _ => [.ioFinaliza resto] }
  | .ioFinalizaFin =>
    { origen := .ioFinaliza []
      destino := fun _ => [] }
  | .moduloSaluda fd nombre =>
    { origen := .moduloSaluda fd nombre
      guarda := fun k => decide ((k.enviados (.dispatch fd)).head? = some .handshakeOk)
      efecto := conexionNueva
      destino := fun k => [.moduloSaludaInterrupt fd k.totalConexiones,
        .interruptRegistra k.totalConexiones nombre] }
  | .moduloSaludaInterrupt fd fdInterrupt =>
    { origen := .moduloSaludaInterrupt fd fdInterrupt
      guarda := fun k => decide ((k.enviados (.interrupt fdInterrupt)).head? = some .handshakeOk)
      destino := fun _ => [.modulo ⟨fd, fdInterrupt, 1, 1, none, false, []⟩] }
  | .moduloAborta fd nombre =>
    { origen := .moduloSaluda fd nombre
      guarda := fun k =>
        !(k.enviados (.dispatch fd)).isEmpty && decide
          ((k.enviados (.dispatch fd)).head? ≠ some .handshakeOk)
      efecto := fun k => { k with cerrados := Function.update k.cerrados fd true }
      destino := fun _ => [] }
  | .moduloAbortaInterrupt fd fdInterrupt =>
    { origen := .moduloSaludaInterrupt fd fdInterrupt
      guarda := fun k => !(k.enviados (.interrupt fdInterrupt)).isEmpty &&
        decide ((k.enviados (.interrupt fdInterrupt)).head? ≠ some .handshakeOk)
      efecto := fun k => { k with cerrados := Function.update k.cerrados fd true }
      destino := fun _ => [] }
  | .moduloLee m =>
    { origen := .modulo m
      guarda := fun k => decide (m.leidos < (k.enviados (.dispatch m.fdDispatch)).length) &&
        (m.rafaga.isNone || m.esperaInit)
      destino := fun k => [.modulo (m.leer (k.enviados (.dispatch m.fdDispatch)))] }
  | .moduloInterrumpe m =>
    { origen := .modulo m
      guarda := fun k => decide (m.leidosInterrupt < (k.enviados (.interrupt m.fdInterrupt)).length)
      destino := fun k => [.modulo (m.interrumpir (k.enviados (.interrupt m.fdInterrupt)))] }
  | .moduloInitProc m path tamanio =>
    { origen := .modulo m
      guarda := fun _ => m.rafaga.isSome && !m.esperaInit
      efecto := fun k => entregar k m.fdDispatch (.initProc path tamanio)
      destino := fun _ => [.modulo { m with esperaInit := true }] }
  | .moduloTermina m programCounter motivo =>
    { origen := .modulo m
      guarda := fun _ => m.rafaga.isSome && !m.esperaInit &&
        decide (motivo ≠ .interrupcion ∨ m.interrupcionPendiente ≠ [])
      efecto := fun k => entregar k m.fdDispatch
        (.respuestaEjecucion m.pid programCounter (motivoFinal m motivo))
      destino := fun _ => [.modulo { m with rafaga := none, interrupcionPendiente := [] }] }
  | .moduloFallaFetch m programCounter =>
    -- the loop is left before the check of `INTERRUPCION_PENDIENTE`
    { origen := .modulo m
      guarda := fun _ => m.rafaga.isSome && !m.esperaInit
      efecto := fun k =>
        entregar k m.fdDispatch (.respuestaEjecucion m.pid programCounter .otro)
      destino := fun _ => [.modulo { m with rafaga := none }] }
  | .moduloDesconecta m =>
    { origen := .modulo m
      efecto := fun k => { k with cerrados := Function.update k.cerrados m.fdDispatch true }
      destino := fun _ => [] }

/-- No thread goes on after one has followed a pointer to a freed block. -/
def programa (c : ConfigKernel) : Programa Kernel Hilo Accion where
  origen a := (transicion c a).origen
  guarda k a := k.indefinido = false ∧ (transicion c a).guarda k = true
  efecto k a := (transicion c a).efecto k
  destino k a := (transicion c a).destino k

instance (c : ConfigKernel) (k : Kernel) (a : Accion) : Decidable ((programa c).guarda k a) :=
  inferInstanceAs (Decidable (_ ∧ _))

/-- After `main` has created the first process and its threads. -/
def arranque (c : ConfigKernel) (path : List Byte) (tamanio : ℤ) (absoluto : Option (List Byte)) :
    Sistema Kernel Hilo where
  comun := crearPcb c inicial path tamanio absoluto
  hilos := [.aceptaCpus, .aceptaIos, .reloj, .largoArranca, .cortoEspera, .gestorEspera]

def configuracion : ConfigKernel := ⟨.fifo, .fifo, 100, 0, 50⟩

/-- A CPU and a device connect, and the first process reaches the CPU. -/
def hastaEjecutar : List Accion :=
  [.conectaCpu [67], .cpuRegistra 0 [67], .cpuResponde 0 0, .moduloSaluda 0 [67],
    .interruptRegistra 1 [67], .interruptResponde 1, .moduloSaludaInterrupt 0 1,
    .conectaIo [68], .ioRegistra 2 [68], .ioResponde 2 0, .ioDespacha 0,
    .largoArranca, .largoDespierta, .largoElige, .largoEnvia 0 false, .largoRecibe 0 false true,
    .largoResuelve 0 false true, .cortoTomaReady, .cortoTomaCpu, .cortoPlanifica,
    .moduloLee ⟨0, 1, 1, 1, none, false, []⟩]

/-- What is left of a run from the start, where each action is taken by the first thread that can.
-/
def tras (c : ConfigKernel) (acciones : List Accion) : Option (Sistema Kernel Hilo) :=
  let s := arranque c [65] 10 none
  correr (paso (programa c)) (agenda (programa c) acciones s) s

end KernelHilos

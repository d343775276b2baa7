import Tpssoo.KernelEstado

/-!
# The functions of the kernel

What the functions of `kernel.c` do between taking `mutex_colas`, or another lock, and
releasing it. Where a thread waits, sends a request or takes a lock again its function is
cut, and the pieces are put together in `KernelHilos`.
-/
namespace KernelFunciones

open EnterosC Protocolo KernelEstado

variable (c : ConfigKernel) (k : Kernel)

section Procesos

/-- `crear_pcb` with `generar_pid`; `absoluto` is what `realpath` returns. -/
def crearPcb (path : List Byte) (tamanio : ℤ) (absoluto : Option (List Byte)) : Kernel :=
  let pid := k.ultimoPid
  let pcb : Pcb :=
    { pid := pid
      programCounter := 0
      tamanioProceso := tamanio
      estado := .new
      pathPseudocodigo := absoluto.getD path
      estimacionRafaga := c.estimacionInicial
      rafagaRealAnterior := 0
      tiempoInicioEjecucionCpu := 0
      metricas := { ingresosANew := 1 }
      timestampUltimoCambio := k.reloj
      tiempoBloqueoIo := 0 }
  let k₁ := { k with ultimoPid := pid + 1, pcbs := Function.update k.pcbs pid (some pcb) }
  if (k.colas .new).isEmpty then (k₁.agregar .new pid).postNewOMemoria else k₁.agregar .new pid

/-- The part of `finalizar_proceso` under `mutex_colas`, and its `sem_post`. -/
def agregarAExit (pcb : ℤ) : Kernel := (k.agregar .exit pcb).postExit

/-- `calcular_siguiente_rafaga`. -/
def calcularSiguienteRafaga (p : Pcb) : Pcb :=
  let nueva := c.alfa * p.rafagaRealAnterior + (1 - c.alfa) * p.estimacionRafaga
  { p with estimacionRafaga := if 0 < nueva then nueva else 1 }

/-- The fields of the PCB that a response changes before its queue does. -/
def actualizarRafaga (ahora programCounter : ℤ) (motivo : Motivo) (p : Pcb) : Pcb :=
  let tiempo : ℚ := (ahora - p.tiempoInicioEjecucionCpu : ℤ)
  let p₁ : Pcb :=
    if motivo = .interrupcion then
      { p with estimacionRafaga := max 0 (p.estimacionRafaga - tiempo) }
    else
      let p₂ := { p with rafagaRealAnterior := tiempo }
      if c.algoritmoCortoPlazo = .sjf ∨ c.algoritmoCortoPlazo = .srt then
        calcularSiguienteRafaga c p₂
      else p₂
  { p₁ with programCounter := programCounter }

end Procesos

section CortoPlazo

/-- The estimate less the time executed, at least 0. -/
def tiempoRestante (ahora : ℤ) (p : Pcb) : ℚ :=
  max 0 (p.estimacionRafaga - ((ahora - p.tiempoInicioEjecucionCpu : ℤ) : ℚ))

/-- The number of `OP_PCB` sent to a CPU: the burst it was last given. -/
def rafagaDe (mensajes : List Mensaje) : ℕ :=
  mensajes.countP fun m => match m with
    | .opPcb _ => true
    | _ => false

def rafagaActual (cpu : ℕ) : ℕ :=
  match (k.cpus cpu).socketDispatch with
  | some fd => rafagaDe (k.enviados (.dispatch fd))
  | none => 0

/-- `enviar_interrupcion_a_cpu`; without a connection it only logs. -/
def enviarInterrupcionACpu (cpu : ℕ) : Kernel :=
  match (k.cpus cpu).socketInterrupt with
  | some fd => k.enviar (.interrupt fd)
      (.procesoInterrupcion (k.cpus cpu).socketDispatch (rafagaActual k cpu))
  | none => k

/-- The loop over the CPUs: the victim so far and its remaining time. The outer `none` is a
PCB in execution that has been freed. -/
def buscarVictima (estimacion : ℚ) : List ℕ → Option (ℕ × ℚ) → Option (Option (ℕ × ℚ))
  | [], victima => some victima
  | cpu :: resto, victima =>
    if (k.cpus cpu).cpuLibre then buscarVictima estimacion resto victima
    else
      match (k.cpus cpu).pcbEnEjecucion with
      | none => buscarVictima estimacion resto victima
      | some pcb =>
        match k.pcbs pcb with
        | none => none
        | some p =>
          let restante := tiempoRestante k.reloj p
          if estimacion < restante ∧ (∀ v ∈ victima, v.2 < restante) then
            buscarVictima estimacion resto (some (cpu, restante))
          else buscarVictima estimacion resto victima

/-- `desalojar_si_es_necesario_srt`. -/
def desalojarSiEsNecesarioSrt (pcb : ℤ) : Kernel :=
  if c.algoritmoCortoPlazo = .srt then
    match k.pcbs pcb with
    | none => k.roto
    | some p =>
      match buscarVictima k p.estimacionRafaga k.listaCpus none with
      | none => k.roto
      | some none => k
      | some (some v) => enviarInterrupcionACpu k v.1
  else k

/-- The indices that `obtener_cpu_libre` tries, twice around the list. -/
def indices : List ℕ :=
  (List.range (k.listaCpus.length * 2)).map fun (i : ℕ) =>
    ((k.ultimoCpuUsado + 1 + i) % k.listaCpus.length).toNat

/-- `obtener_cpu_libre`: the index in the list and the CPU. -/
def obtenerCpuLibre : Option (ℕ × ℕ) :=
  (indices k).findSome? fun i =>
    (k.listaCpus[i]?).bind fun cpu => if (k.cpus cpu).cpuLibre then some (i, cpu) else none

/-- `comparar_por_rafaga_estimada`. -/
def compararPorRafagaEstimada (p q : Pcb) : Bool :=
  decide (p.estimacionRafaga < q.estimacionRafaga) ||
    decide (p.estimacionRafaga = q.estimacionRafaga) && decide (p.pid < q.pid)

/-- `comparar_por_memoria`. -/
def compararPorMemoria (p q : Pcb) : Bool := decide (p.tamanioProceso < q.tamanioProceso)

/-- A comparator on the PCBs that two pointers lead to. -/
def porPcb (antes : Pcb → Pcb → Bool) (p q : ℤ) : Bool :=
  match k.pcbs p, k.pcbs q with
  | some p, some q => antes p q
  | _, _ => false

/-- Every PCB of a queue is still allocated. -/
def Vivos (xs : List ℤ) : Prop := ∀ p ∈ xs, (k.pcbs p).isSome

instance (xs : List ℤ) : Decidable (Vivos k xs) :=
  inferInstanceAs (Decidable (∀ p ∈ xs, (k.pcbs p).isSome))

/-- `cola_ready` in the order in which the short-term planner takes from it. -/
def ordenReady : List ℤ :=
  match c.algoritmoCortoPlazo with
  | .sjf | .srt => listSort (porPcb k compararPorRafagaEstimada) (k.colas .ready)
  | _ => k.colas .ready

/-- `enviar_pcb_a_cpu`; the start of the burst is kept in an `int`. -/
def enviarPcbACpu (cpu : ℕ) (pcb : ℤ) : Kernel :=
  let k₁ :=
    match k.pcbs pcb, (k.cpus cpu).socketDispatch with
    | some p, some fd => k.enviar (.dispatch fd) (.opPcb p)
    | _, _ => k
  k₁.conPcb pcb fun p => { p with tiempoInicioEjecucionCpu := aInt k.reloj }

/-- `planificador_corto_plazo` under `mutex_colas`, with a ticket of each semaphore. -/
def planificarCortoPlazo : Kernel :=
  if c.algoritmoCortoPlazo = .otro ∨ (k.colas .ready).isEmpty then k.postReady.postCpuLibre
  else if (c.algoritmoCortoPlazo = .sjf ∨ c.algoritmoCortoPlazo = .srt) ∧
      ¬ Vivos k (k.colas .ready) then k.roto
  else
    match ordenReady c k with
    | [] => k.postReady.postCpuLibre
    | pcb :: resto =>
      match obtenerCpuLibre k with
      | none =>
        { k with colas := Function.update k.colas .ready (pcb :: resto) }.postReady
      | some (i, cpu) =>
        let k₁ : Kernel :=
          { k with colas := Function.update k.colas .ready resto, ultimoCpuUsado := i }
        let k₂ := k₁.conCpu cpu fun x => { x with cpuLibre := false }
        let k₃ := (k₂.agregar .running pcb).cambiarEstado pcb .running
        let k₄ := k₃.conCpu cpu fun x => { x with pcbEnEjecucion := some pcb }
        enviarPcbACpu k₄ cpu pcb

end CortoPlazo

section LargoPlazo

/-- A queue as the long-term planner leaves it before it takes its head. -/
def ordenLargoPlazo (e : Estado) : List ℤ :=
  match c.algoritmoLargoPlazo with
  | .fifo => k.colas e
  | .pmcp => listSort (porPcb k compararPorMemoria) (k.colas e)

/-- The queue that the long-term planner looks at. -/
def colaAAdmitir : Estado :=
  if (k.colas .suspendedReady).isEmpty then .new else .suspendedReady

/-- The choice of a candidate, which sorts its queue. -/
def elegirCandidato : Kernel :=
  if c.algoritmoLargoPlazo = .pmcp ∧ ¬ Vivos k (k.colas (colaAAdmitir k)) then k.roto
  else
    { k with
      colas := Function.update k.colas (colaAAdmitir k) (ordenLargoPlazo c k (colaAAdmitir k)) }

/-- After an answer of Memoria, under `mutex_colas`. -/
def admitir (pcb : ℤ) (vieneDeSusp : Bool) : Kernel :=
  let e : Estado := if vieneDeSusp then .suspendedReady else .new
  let k₁ : Kernel := { k with colas := Function.update k.colas e (k.colas e).tail }
  desalojarSiEsNecesarioSrt c ((k₁.agregar .ready pcb).cambiarEstado pcb .ready).postReady pcb

end LargoPlazo

section Bloqueos

/-- `dictionary_get` on the devices. -/
def buscarGrupo (nombre : List Byte) : Option GrupoIo :=
  k.dispositivosIo.find? fun g => g.nombreDispositivo = nombre

/-- The first critical section of `bloquear_proceso` when the device exists. -/
def bloquearPorIo (pcb tiempo : ℤ) : Kernel :=
  ((((k.quitar .running pcb).conPcb pcb fun p => { p with tiempoBloqueoIo := tiempo }).cambiarEstado
    pcb .blocked).agregar .blocked pcb)

/-- `bloquear_proceso_por_dump`. -/
def bloquearProcesoPorDump (pcb : ℤ) : Kernel :=
  ((k.quitar .running pcb).agregar .blocked pcb).cambiarEstado pcb .blocked

/-- The critical section of `hilo_suspension_proceso`. -/
def suspender (pcb : ℤ) : Kernel :=
  ((k.cambiarEstado pcb .suspendedBlocked).quitar .blocked pcb).agregar .suspendedBlocked pcb

/-- From BLOCKED to READY. -/
def desbloquear (pcb : ℤ) : Kernel :=
  (((k.quitar .blocked pcb).agregar .ready pcb).cambiarEstado pcb .ready).postReady

/-- From SUSPENDED_BLOCKED to SUSPENDED_READY. -/
def desbloquearSuspendido (pcb : ℤ) : Kernel :=
  (((k.quitar .suspendedBlocked pcb).agregar .suspendedReady pcb).cambiarEstado pcb
    .suspendedReady).postNewOMemoria

/-- The state of the PCB that `buscar_pcb_por_pid` finds. -/
def estadoDe (pcb : ℤ) : Option Estado := (k.pcbs pcb).map Pcb.estado

/-- The critical section of `hilo_manejador_dump` when Memoria answered `DUMP_OK`. -/
def terminarDump (pid : ℤ) : Kernel :=
  match buscarPcbPorPid k pid with
  | none => k.roto
  | some none => k
  | some (some pcb) =>
    if estadoDe k pcb = some .blocked then desbloquear k pcb
    else if estadoDe k pcb = some .suspendedBlocked then desbloquearSuspendido k pcb
    else k

/-- The removals before `finalizar_proceso` on a waiting process. -/
def quitarBloqueado (pcb : ℤ) : Kernel :=
  let k₁ := if estadoDe k pcb = some .blocked then k.quitar .blocked pcb else k
  if estadoDe k pcb = some .suspendedBlocked then k₁.quitar .suspendedBlocked pcb else k₁

end Bloqueos

section Dispositivos

/-- The index of the first idle instance, from the one after the last used. -/
def instanciaLibre (g : GrupoIo) : Option ℕ :=
  ((List.range g.instancias.length).map fun (i : ℕ) =>
    ((g.ultimoDespachoIdx + 1 + i) % g.instancias.length).toNat).find? fun i =>
      match g.instancias[i]? with
      | some x => !x.ocupado
      | none => false

/-- The loop of `despachar_io_si_es_posible` over the waiting requests, with what it sends
and to which connection. -/
def despacharCola (g : GrupoIo) : List Solicitud → GrupoIo × List (ℕ × Solicitud)
  | [] => ({ g with colaEsperaCompartida := [] }, [])
  | sol :: resto =>
    match instanciaLibre g with
    | none => ({ g with colaEsperaCompartida := sol :: resto }, [])
    | some i =>
      match g.instancias[i]? with
      | none => ({ g with colaEsperaCompartida := sol :: resto }, [])
      | some x =>
        let g₁ := { g with
          instancias := g.instancias.set i { x with ocupado := true, pidEnEjecucion := sol.pid }
          ultimoDespachoIdx := i }
        let r := despacharCola g₁ resto
        (r.1, (x.socketFd, sol) :: r.2)

/-- `despachar_io_si_es_posible`. -/
def despacharIoSiEsPosible (g : GrupoIo) : GrupoIo × List (ℕ × Solicitud) :=
  despacharCola g g.colaEsperaCompartida

def enviarPedido (nombre : List Byte) (enviados : Canal → List Mensaje) (x : ℕ × Solicitud) :
    Canal → List Mensaje :=
  Function.update enviados (.io x.1) (enviados (.io x.1) ++ [.io nombre x.2])

/-- A group back in the dictionary, after what was sent for it. -/
def guardarGrupo (r : GrupoIo × List (ℕ × Solicitud)) : Kernel :=
  { k with
    dispositivosIo := k.dispositivosIo.map fun g => if g.id = r.1.id then r.1 else g
    enviados := r.2.foldl (enviarPedido r.1.nombreDispositivo) k.enviados }

/-- A pointer to a group, which is only good while the group is registered. -/
def grupoDe (id : ℕ) : Option GrupoIo := k.dispositivosIo.find? fun g => g.id = id

/-- The second critical section of `bloquear_proceso`. -/
def encolarSolicitud (grupo : ℕ) (pcb tiempo : ℤ) : Kernel :=
  match grupoDe k grupo, k.pcbs pcb with
  | some g, some p =>
    guardarGrupo k (despacharIoSiEsPosible
      { g with colaEsperaCompartida := g.colaEsperaCompartida ++ [⟨p.pid, tiempo⟩] })
  | _, _ => k.roto

/-- The end of the handshake with an IO module. -/
def despacharGrupo (grupo : ℕ) : Kernel :=
  match grupoDe k grupo with
  | some g => guardarGrupo k (despacharIoSiEsPosible g)
  | none => k.roto

/-- The group of a device that connects, created when it is the first of its name. -/
def registrarInstancia (nombre : List Byte) (fd : ℕ) : Kernel × ℕ :=
  let x : Instancia := ⟨fd, false, 0⟩
  match buscarGrupo k nombre with
  | some g =>
    ({ k with dispositivosIo := k.dispositivosIo.map fun h =>
        if h.id = g.id then { h with instancias := h.instancias ++ [x] } else h }, g.id)
  | none =>
    ({ k with
      dispositivosIo := k.dispositivosIo ++ [⟨k.totalGrupos, nombre, [x], [], -1⟩]
      totalGrupos := k.totalGrupos + 1 }, k.totalGrupos)

/-- The group of the instance that a connection belongs to. -/
def grupoDeSocket (fd : ℕ) : Option GrupoIo :=
  k.dispositivosIo.find? fun g => g.instancias.any fun x => x.socketFd = fd

/-- `manejar_fin_io` on the process: what it does to the queues. -/
def despertarDeIo (pid : ℤ) : Kernel :=
  match buscarPcbPorPid k pid with
  | none => k.roto
  | some none => k
  | some (some pcb) =>
    if estadoDe k pcb = some .blocked then
      desalojarSiEsNecesarioSrt c (desbloquear k pcb) pcb
    else if estadoDe k pcb = some .suspendedBlocked then desbloquearSuspendido k pcb
    else k

def liberarInstancia (g : GrupoIo) (fd : ℕ) : GrupoIo :=
  { g with instancias := g.instancias.map fun x =>
      if x.socketFd = fd then { x with ocupado := false } else x }

/-- `manejar_fin_io`. -/
def manejarFinIo (pid : ℤ) (fd : ℕ) : Kernel :=
  match grupoDeSocket k fd with
  | none => k
  | some g =>
    guardarGrupo (despertarDeIo c k pid) (despacharIoSiEsPosible (liberarInstancia g fd))

/-- The request in flight at a lost instance goes back to the head of its queue. -/
def reencolar (g : GrupoIo) (x : Instancia) : Option GrupoIo :=
  if x.ocupado then
    match buscarPcbPorPid k x.pidEnEjecucion with
    | none => none
    | some none => some g
    | some (some pcb) =>
      (k.pcbs pcb).map fun p =>
        { g with colaEsperaCompartida := ⟨p.pid, p.tiempoBloqueoIo⟩ :: g.colaEsperaCompartida }
  else some g

/-- The loop that empties the queue of a device without instances: the processes to
finalise leave their queue. -/
def vaciarEspera : List Solicitud → Kernel → Kernel × List ℤ
  | [], k => (k, [])
  | sol :: resto, k =>
    match buscarPcbPorPid k sol.pid with
    | none => (k.roto, [])
    | some none => vaciarEspera resto k
    | some (some pcb) =>
      let r := vaciarEspera resto (quitarBloqueado k pcb)
      (r.1, pcb :: r.2)

/-- `manejar_desconexion_io` up to the release of `mutex_colas`, with the processes that
are left to finalise. -/
def manejarDesconexionIo (nombre : List Byte) (fd : ℕ) : Kernel × List ℤ :=
  match buscarGrupo k nombre with
  | none => (k, [])
  | some g =>
    match g.instancias.find? fun x => x.socketFd = fd with
    | none => (k, [])
    | some x =>
      match reencolar k g x with
      | none => (k.roto, [])
      | some g₁ =>
        let g₂ := { g₁ with instancias := g₁.instancias.filter fun y => y.socketFd ≠ fd }
        if g₂.instancias.isEmpty then
          let r := vaciarEspera g₂.colaEsperaCompartida k
          ({ r.1 with dispositivosIo := r.1.dispositivosIo.filter fun h => h.id ≠ g.id }, r.2)
        else (guardarGrupo k (despacharIoSiEsPosible g₂), [])

end Dispositivos

end KernelFunciones

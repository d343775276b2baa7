import Tpssoo.Protocolo
import Mathlib.Data.Rat.Defs
import Mathlib.Algebra.Order.Ring.Rat
import Mathlib.Logic.Function.Basic

/-!
# The state of the kernel

The global variables of `kernel.c`. A `t_pcb*` is the PID of its block, which never
changes while the block lives, and a `t_cpu*` the number of its block, which is never
freed. The seven queues are one table, under the state whose queue each is.
-/
namespace KernelEstado

open EnterosC Protocolo

inductive Estado where
  | new | ready | running | blocked | exit | suspendedReady | suspendedBlocked
  deriving DecidableEq, Repr

inductive AlgoritmoCortoPlazo where
  | fifo | sjf | srt | otro
  deriving DecidableEq, Repr

inductive AlgoritmoLargoPlazo where
  | fifo | pmcp
  deriving DecidableEq, Repr

structure ConfigKernel where
  algoritmoCortoPlazo : AlgoritmoCortoPlazo
  algoritmoLargoPlazo : AlgoritmoLargoPlazo
  estimacionInicial : ℚ
  alfa : ℚ
  tiempoSuspension : ℤ

/-- `tiempos` and `ingresos` under the first state that each covers; the two suspended
states share theirs, and EXIT has none. -/
structure Metricas where
  tiempoEnNew : ℤ := 0
  tiempoEnReady : ℤ := 0
  tiempoEnRunning : ℤ := 0
  tiempoEnBlocked : ℤ := 0
  tiempoEnSuspended : ℤ := 0
  ingresosANew : ℕ := 0
  ingresosAReady : ℕ := 0
  ingresosARunning : ℕ := 0
  ingresosABlocked : ℕ := 0
  ingresosASuspended : ℕ := 0
  deriving DecidableEq, Repr

structure Pcb where
  pid : ℤ
  programCounter : ℤ
  tamanioProceso : ℤ
  estado : Estado
  pathPseudocodigo : List Byte
  estimacionRafaga : ℚ
  rafagaRealAnterior : ℚ
  tiempoInicioEjecucionCpu : ℤ
  metricas : Metricas
  timestampUltimoCambio : ℤ
  tiempoBloqueoIo : ℤ
  deriving DecidableEq, Repr

/-- A socket descriptor of -1 is `none`. -/
structure Cpu where
  nombre : List Byte
  socketDispatch : Option ℕ
  socketInterrupt : Option ℕ
  cpuLibre : Bool
  pcbEnEjecucion : Option ℤ
  deriving DecidableEq, Repr

/-- A `t_io`, one connection to a device. -/
structure Instancia where
  socketFd : ℕ
  ocupado : Bool
  pidEnEjecucion : ℤ
  deriving DecidableEq, Repr

structure Solicitud where
  pid : ℤ
  tiempo : ℤ
  deriving DecidableEq, Repr

/-- The instances and the waiting queue of a device; `id` tells its block from those of
other groups, destroyed ones included. -/
structure GrupoIo where
  id : ℕ
  nombreDispositivo : List Byte
  instancias : List Instancia
  colaEsperaCompartida : List Solicitud
  ultimoDespachoIdx : ℤ
  deriving DecidableEq, Repr

/-- A packet from the kernel to a module. An interrupt carries nothing: `conexion` and `rafaga`
are not in the packet, they record on which dispatch connection the burst that it is to end
was sent, and which of the `OP_PCB` sent there it is. -/
inductive Mensaje where
  | handshakeOk
  | opPcb (pcb : Pcb)
  | initProcesoOk
  | procesoInterrupcion (conexion : Option ℕ) (rafaga : ℕ)
  | io (nombreDispositivo : List Byte) (solicitud : Solicitud)
  deriving DecidableEq, Repr

/-- A connection that the kernel accepted, under the port it came through. -/
inductive Canal where
  | dispatch (fd : ℕ)
  | interrupt (fd : ℕ)
  | io (fd : ℕ)
  deriving DecidableEq, Repr

/-- The motive of `OP_RESPUESTA_EJECUCION` as the switch of the kernel tells it. -/
inductive Motivo where
  | exit
  | bloqueanteIo (dispositivo : List Byte) (duracion : ℤ)
  | bloqueanteDumpMemory
  | interrupcion
  | errorSegFault
  | otro
  deriving DecidableEq, Repr

/-- A packet from a CPU over its dispatch connection. -/
inductive PaqueteCpu where
  | initProc (path : List Byte) (tamanio : ℤ)
  | respuestaEjecucion (pid programCounter : ℤ) (motivo : Motivo)
  | otro
  deriving DecidableEq, Repr

/-- Who owns `mutex_colas`. -/
inductive Dueno where
  | escuchaCpu (cpu : ℕ)
  | dump (pcb : ℤ)
  deriving DecidableEq, Repr

structure Kernel where
  colas : Estado → List ℤ
  pcbs : ℤ → Option Pcb
  ultimoPid : ℤ
  cpus : ℕ → Cpu
  listaCpus : List ℕ
  totalCpus : ℕ
  ultimoCpuUsado : ℤ
  dispositivosIo : List GrupoIo
  totalGrupos : ℕ
  semProcesosReady : ℕ
  semCpuLibre : ℕ
  semProcesosEnNewOMemoriaLibre : ℕ
  semProcesosEnExit : ℕ
  mutexColas : Option Dueno
  cpuConectada : Bool
  totalConexiones : ℕ
  /-- What the kernel has sent on each connection, oldest first. -/
  enviados : Canal → List Mensaje
  /-- What a CPU has sent and the kernel has not received. -/
  entrantes : ℕ → List PaqueteCpu
  /-- The dispatch connections that the CPU has closed. -/
  cerrados : ℕ → Bool
  reloj : ℤ
  /-- A thread has followed a pointer to a freed block. -/
  indefinido : Bool

namespace Kernel

variable (k : Kernel)

def roto : Kernel := { k with indefinido := true }

def agregar (e : Estado) (pcb : ℤ) : Kernel :=
  { k with colas := Function.update k.colas e (k.colas e ++ [pcb]) }

/-- `list_remove_element`. -/
def quitar (e : Estado) (pcb : ℤ) : Kernel :=
  { k with colas := Function.update k.colas e ((k.colas e).erase pcb) }

/-- A write to the fields of a PCB, undefined when the block has been freed. -/
def conPcb (pcb : ℤ) (f : Pcb → Pcb) : Kernel :=
  { k with
    pcbs := Function.update k.pcbs pcb ((k.pcbs pcb).map f)
    indefinido := k.indefinido || (k.pcbs pcb).isNone }

def conCpu (c : ℕ) (f : Cpu → Cpu) : Kernel :=
  { k with cpus := Function.update k.cpus c (f (k.cpus c)) }

def postReady : Kernel := { k with semProcesosReady := k.semProcesosReady + 1 }

def postCpuLibre : Kernel := { k with semCpuLibre := k.semCpuLibre + 1 }

def postNewOMemoria : Kernel :=
  { k with semProcesosEnNewOMemoriaLibre := k.semProcesosEnNewOMemoriaLibre + 1 }

def postExit : Kernel := { k with semProcesosEnExit := k.semProcesosEnExit + 1 }

def enviar (a : Canal) (m : Mensaje) : Kernel :=
  { k with enviados := Function.update k.enviados a (k.enviados a ++ [m]) }

variable {c d : ℕ} {a b : Canal}

theorem colas_agregar (e : Estado) (p : ℤ) (e' : Estado) :
    (k.agregar e p).colas e' = if e' = e then k.colas e' ++ [p] else k.colas e' := by
  by_cases h : e' = e
  · subst h
    rw [if_pos rfl]
    exact Function.update_self _ _ _
  · rw [if_neg h]
    exact Function.update_of_ne h _ _

theorem colas_quitar (e : Estado) (p : ℤ) (e' : Estado) :
    (k.quitar e p).colas e' = if e' = e then (k.colas e').erase p else k.colas e' := by
  by_cases h : e' = e
  · subst h
    rw [if_pos rfl]
    exact Function.update_self _ _ _
  · rw [if_neg h]
    exact Function.update_of_ne h _ _

theorem conCpu_misma (f : Cpu → Cpu) : (k.conCpu c f).cpus c = f (k.cpus c) :=
  Function.update_self _ _ _

theorem conCpu_otra (f : Cpu → Cpu) (h : d ≠ c) : (k.conCpu c f).cpus d = k.cpus d :=
  Function.update_of_ne h _ _

theorem enviar_mismo (m : Mensaje) : (k.enviar a m).enviados a = k.enviados a ++ [m] :=
  Function.update_self _ _ _

theorem enviar_otro (m : Mensaje) (h : b ≠ a) : (k.enviar a m).enviados b = k.enviados b :=
  Function.update_of_ne h _ _

end Kernel

section Estados

/-- The time spent in the state that is left. -/
def Metricas.acumular (m : Metricas) (estado : Estado) (tiempo : ℤ) : Metricas :=
  match estado with
  | .new => { m with tiempoEnNew := m.tiempoEnNew + tiempo }
  | .ready => { m with tiempoEnReady := m.tiempoEnReady + tiempo }
  | .running => { m with tiempoEnRunning := m.tiempoEnRunning + tiempo }
  | .blocked => { m with tiempoEnBlocked := m.tiempoEnBlocked + tiempo }
  | .suspendedBlocked | .suspendedReady =>
    { m with tiempoEnSuspended := m.tiempoEnSuspended + tiempo }
  | .exit => m

def Metricas.ingresar (m : Metricas) (estado : Estado) : Metricas :=
  match estado with
  | .new => { m with ingresosANew := m.ingresosANew + 1 }
  | .ready => { m with ingresosAReady := m.ingresosAReady + 1 }
  | .running => { m with ingresosARunning := m.ingresosARunning + 1 }
  | .blocked => { m with ingresosABlocked := m.ingresosABlocked + 1 }
  | .suspendedBlocked | .suspendedReady =>
    { m with ingresosASuspended := m.ingresosASuspended + 1 }
  | .exit => m

/-- `cambiar_estado`, at time `ahora`. -/
def Pcb.cambiarEstado (ahora : ℤ) (nuevo : Estado) (p : Pcb) : Pcb :=
  if p.estado = nuevo then p
  else
    { p with
      metricas := (p.metricas.acumular p.estado (ahora - p.timestampUltimoCambio)).ingresar nuevo
      estado := nuevo
      timestampUltimoCambio := ahora }

theorem Pcb.estado_cambiarEstado (ahora : ℤ) (nuevo : Estado) (p : Pcb) :
    (p.cambiarEstado ahora nuevo).estado = nuevo := by
  rw [Pcb.cambiarEstado]
  split
  · next h => exact h
  · rfl

def Kernel.cambiarEstado (k : Kernel) (pcb : ℤ) (nuevo : Estado) : Kernel :=
  k.conPcb pcb (Pcb.cambiarEstado k.reloj nuevo)

/-- `list_find` by PID over the queues that `buscar_pcb_por_pid` looks in; the outer `none`
is a pointer to a freed block met on the way. -/
def buscarEnCola (pcbs : ℤ → Option Pcb) (pid : ℤ) : List ℤ → Option (Option ℤ)
  | [] => some none
  | q :: qs =>
    if (pcbs q).isNone then none
    else if q = pid then some (some q)
    else buscarEnCola pcbs pid qs

def buscarPcbPorPid (k : Kernel) (pid : ℤ) : Option (Option ℤ) :=
  buscarEnCola k.pcbs pid (k.colas .running ++ (k.colas .ready ++ (k.colas .blocked ++
    (k.colas .suspendedBlocked ++ k.colas .suspendedReady))))

end Estados

section Listas

/-- `list_sort`, which keeps the order of elements that no comparison tells apart. -/
def insertarOrdenado {α : Type*} (antes : α → α → Bool) (x : α) : List α → List α
  | [] => [x]
  | y :: ys => if antes y x then y :: insertarOrdenado antes x ys else x :: y :: ys

def listSort {α : Type*} (antes : α → α → Bool) (xs : List α) : List α :=
  xs.foldr (insertarOrdenado antes) []

variable {α β : Type*} {antes : α → α → Bool}

theorem map_set_igual {f : α → β} {xs : List α} {i : ℕ} {x y : α}
    (hx : xs[i]? = some x) (hf : f y = f x) : (xs.set i y).map f = xs.map f := by
  apply List.ext_getElem?
  intro j
  rw [List.getElem?_map, List.getElem?_map]
  by_cases h : i = j
  · subst h
    obtain ⟨hlt, -⟩ := List.getElem?_eq_some_iff.mp hx
    rw [List.getElem?_set_self hlt, hx, Option.map_some, Option.map_some, hf]
  · rw [List.getElem?_set_ne h]

theorem insertarOrdenado_perm (x : α) (xs : List α) :
    (insertarOrdenado antes x xs).Perm (x :: xs) := by
  induction xs with
  | nil => exact .refl _
  | cons y ys ih =>
    rw [insertarOrdenado]
    split
    · exact (ih.cons y).trans (.swap x y ys)
    · exact .refl _

theorem listSort_perm (xs : List α) : (listSort antes xs).Perm xs := by
  induction xs with
  | nil => exact .refl _
  | cons x xs ih => exact (insertarOrdenado_perm x _).trans (ih.cons x)

/-- A list sorted by a key starts with the least. -/
theorem listSort_cabeza [LinearOrder β] {f : α → β} {xs : List α} {p : α}
    (hf : ∀ x ∈ xs, ∀ y ∈ xs, antes x y = true ↔ f x < f y)
    (h : (listSort antes xs).head? = some p) : ∀ q ∈ xs, f p ≤ f q := by
  induction xs generalizing p with
  | nil => cases h
  | cons x xs ih =>
    have hf' : ∀ x ∈ xs, ∀ y ∈ xs, antes x y = true ↔ f x < f y := fun y hy z hz =>
      hf y (List.mem_cons_of_mem _ hy) z (List.mem_cons_of_mem _ hz)
    have h : (insertarOrdenado antes x (listSort antes xs)).head? = some p := h
    intro q hq
    cases hs : listSort antes xs with
    | nil =>
      have hvacia : xs = [] := List.perm_nil.mp (hs ▸ (listSort_perm xs).symm)
      subst hvacia
      rw [hs] at h
      cases h
      rw [List.mem_singleton.mp hq]
    | cons y ys =>
      have hy : y ∈ xs := (listSort_perm xs).subset (hs ▸ List.mem_cons_self)
      have hmin : ∀ q ∈ xs, f y ≤ f q := ih hf' (by rw [hs]; rfl)
      have horden := hf y (List.mem_cons_of_mem _ hy) x List.mem_cons_self
      rw [hs, insertarOrdenado] at h
      split at h
      · next hlt =>
          cases h
          rcases List.mem_cons.mp hq with rfl | hq
          · exact (horden.mp hlt).le
          · exact hmin q hq
      · next hge =>
          cases h
          rcases List.mem_cons.mp hq with rfl | hq
          · exact le_rfl
          · exact (not_lt.mp fun hlt => hge (horden.mpr hlt)).trans (hmin q hq)

end Listas

/-- After `inicializar_kernel`. -/
def inicial : Kernel where
  colas := fun _ => []
  pcbs := fun _ => none
  ultimoPid := 0
  cpus := fun _ => ⟨[], none, none, false, none⟩
  listaCpus := []
  totalCpus := 0
  ultimoCpuUsado := -1
  dispositivosIo := []
  totalGrupos := 0
  semProcesosReady := 0
  semCpuLibre := 0
  semProcesosEnNewOMemoriaLibre := 0
  semProcesosEnExit := 0
  mutexColas := none
  cpuConectada := false
  totalConexiones := 0
  enviados := fun _ => []
  entrantes := fun _ => []
  cerrados := fun _ => false
  reloj := 0
  indefinido := false

end KernelEstado

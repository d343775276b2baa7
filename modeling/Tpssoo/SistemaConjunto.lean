import Tpssoo.KernelHilos
import Tpssoo.MemoriaPeticiones

/-!
# The kernel and Memoria together

Each thread of the kernel that asks Memoria for something opens a connection of its own,
sends one request and waits for the answer. Memoria handles the requests of the connections
that are open in any order, between any two steps of the kernel, and those of the CPUs.
-/
namespace SistemaConjunto

open EnterosC Protocolo KernelEstado KernelHilos MemoriaEstado MemoriaPeticiones Entrelazado
open Tartamudeo

/-- A connection from the kernel: the point at which its thread waits, what it asked, and what
Memoria has sent. -/
structure Conexion where
  hilo : Hilo
  peticion : Peticion
  respuesta : Option (List Envio)
  deriving DecidableEq

structure Conjunto (cfg : Config) where
  kernel : Sistema Kernel Hilo
  memoria : Memoria cfg
  conexiones : List Conexion

/-- The request of an action that sends one, on its new connection. -/
def abre (k : Kernel) : Accion → Option Conexion
  | .largoEnvia pcb susp =>
    (k.pcbs pcb).map fun p =>
      ⟨.largoAguarda pcb susp,
        if susp then .desuspenderProceso p.pid
        else .initProc p.pid p.tamanioProceso (p.pathPseudocodigo.length + 1)
          (p.pathPseudocodigo ++ [0]), none⟩
  | .gestorEnvia pcb =>
    (k.pcbs pcb).map fun p => ⟨.gestorAguarda pcb, .finalizarProceso p.pid, none⟩
  | .suspensionEnvia pid => some ⟨.suspensionAguarda pid, .suspenderProceso pid, none⟩
  | .dumpEnvia pcb => (k.pcbs pcb).map fun p => ⟨.dumpAguarda pcb, .dumpMemory p.pid, none⟩
  | _ => none

/-- The code that an action which takes an answer looks for, and whether it found it. -/
def espera : Accion → Option (OpCode × Bool)
  | .largoRecibe _ susp ok => some (if susp then .desuspensionOk else .initProcesoOk, ok)
  | .gestorRecibe _ ok => some (.finalizacionOk, ok)
  | .suspensionRecibe _ ok => some (.suspensionOk, ok)
  | .dumpRecibe _ ok => some (.dumpOk, ok)
  | _ => none

/-- `recibir_paquete` on the answer, and the test of its code. -/
def confirma (esperado : OpCode) : List Envio → Bool
  | .paquete p :: _ => decide (p.codigoOperacion = esperado.codigo)
  | _ => false

/-- The requests of the CPU modules. -/
def deCpu : Peticion → Bool
  | .pedirInstrucciones _ _ | .pedirEspacioLibre | .traducirTabla _ _ | .leerMemoria _ _ _ _
  | .escribirMemoria _ _ _ _ _ => true
  | _ => false

inductive Evento where
  | kernel (i : ℕ) (a : Accion)
  | recibe (i : ℕ) (a : Accion) (j : ℕ)
  | atiende (env : Entorno) (j : ℕ)
  | accede (env : Entorno) (peticion : Peticion)

variable {cfg : Config}

/-- Thread `i` of the kernel takes the action. -/
def mueve (c : ConfigKernel) (i : ℕ) (a : Accion) (conexiones : List Conexion) (s : Conjunto cfg) :
    Option (Conjunto cfg) :=
  (Entrelazado.paso (programa c) (i, a) s.kernel).map fun kernel =>
    { s with kernel := kernel, conexiones := conexiones }

/-- One step. An answer is taken from connection `j`, which its thread then closes. -/
def paso (c : ConfigKernel) : Evento → Conjunto cfg → Option (Conjunto cfg)
  | .kernel i a, s =>
    if espera a = none then mueve c i a (s.conexiones ++ (abre s.kernel.comun a).toList) s else none
  | .recibe i a j, s =>
    match s.conexiones[j]?, espera a with
    | some ⟨hilo, _, some envios⟩, some (esperado, ok) =>
      if hilo = (programa c).origen a ∧ confirma esperado envios = ok then
        mueve c i a (s.conexiones.eraseIdx j) s
      else none
    | _, _ => none
  | .atiende env j, s =>
    match s.conexiones[j]? with
    | some ⟨hilo, peticion, none⟩ =>
      (atenderPostHandshake env s.memoria peticion).map fun r =>
        { s with
          memoria := r.2
          conexiones := s.conexiones.set j ⟨hilo, peticion, some r.1⟩ }
    | _ => none
  | .accede env peticion, s =>
    if deCpu peticion then
      (atenderPostHandshake env s.memoria peticion).map fun r => { s with memoria := r.2 }
    else none

/-- Both modules have started, and the kernel has created its first process. -/
def arranque (cfg : Config) (c : ConfigKernel) (path : List Byte) (tamanio : ℤ)
    (absoluto : Option (List Byte)) : Conjunto cfg where
  kernel := KernelHilos.arranque c path tamanio absoluto
  memoria := MemoriaEstado.inicial cfg
  conexiones := []

section Agendas

/-- The event with the first thread that can take it. -/
def alPrimero (c : ConfigKernel) (s : Conjunto cfg) : Evento → Evento
  | .kernel _ a => .kernel (s.kernel.hilos.findIdx (· = (programa c).origen a)) a
  | .recibe _ a j => .recibe (s.kernel.hilos.findIdx (· = (programa c).origen a)) a j
  | e => e

/-- The steps of a run in which each action is taken by the first thread that can. -/
def agenda (c : ConfigKernel) : List Evento → Conjunto cfg → List Evento
  | [], _ => []
  | e :: es, s =>
    let e' := alPrimero c s e
    e' :: ((paso c e' s).map (agenda c es)).getD []

/-- The action, with the work of Memoria before an answer when it is the only one open. -/
def enTurno (a : Accion) : List Evento :=
  if espera a = none then [.kernel 0 a] else [.atiende entornoEjemplo 0, .recibe 0 a 0]

end Agendas

section Inversion

variable {c : ConfigKernel} {s s' : Conjunto cfg}

/-- A step of the kernel, with the connections that it leaves. -/
theorem mueve_casos {i : ℕ} {a : Accion} {xs : List Conexion} (h : mueve c i a xs s = some s') :
    ∃ k l r, s.kernel = ⟨k, l ++ (programa c).origen a :: r⟩ ∧ (programa c).guarda k a ∧
      s' = ⟨⟨(programa c).efecto k a, l ++ ((programa c).destino k a ++ r)⟩, s.memoria, xs⟩ := by
  obtain ⟨kernel, hpaso, rfl⟩ := Option.map_eq_some_iff.mp h
  obtain ⟨l, r, hhilos, -, hg, rfl⟩ := paso_casos hpaso
  refine ⟨s.kernel.comun, l, r, ?_, hg, rfl⟩
  rw [← hhilos]

theorem recibe_casos {i j : ℕ} {a : Accion} (h : paso c (.recibe i a j) s = some s') :
    ∃ peticion envios esperado ok, s.conexiones[j]? =
        some ⟨(programa c).origen a, peticion, some envios⟩ ∧
      espera a = some (esperado, ok) ∧ confirma esperado envios = ok ∧
      mueve c i a (s.conexiones.eraseIdx j) s = some s' := by
  rw [paso] at h
  split at h
  · next hilo peticion envios esperado ok hx hesp =>
      split at h
      · next hcond =>
          obtain ⟨rfl, hok⟩ := hcond
          exact ⟨peticion, envios, esperado, ok, hx, hesp, hok, h⟩
      · cases h
  · cases h

theorem atiende_casos {env : Entorno} {j : ℕ} (h : paso c (.atiende env j) s = some s') :
    ∃ hilo peticion envios m, s.conexiones[j]? = some ⟨hilo, peticion, none⟩ ∧
      atenderPostHandshake env s.memoria peticion = some (envios, m) ∧
      s' = ⟨s.kernel, m, s.conexiones.set j ⟨hilo, peticion, some envios⟩⟩ := by
  rw [paso] at h
  split at h
  · next hilo peticion hx =>
      obtain ⟨⟨envios, m⟩, hat, rfl⟩ := Option.map_eq_some_iff.mp h
      exact ⟨hilo, peticion, envios, m, hx, hat, rfl⟩
  · cases h

theorem accede_casos {env : Entorno} {peticion : Peticion}
    (h : paso c (.accede env peticion) s = some s') :
    deCpu peticion = true ∧ ∃ envios m, atenderPostHandshake env s.memoria peticion =
        some (envios, m) ∧ s' = { s with memoria := m } := by
  rw [paso] at h
  split at h
  · next hcpu =>
      obtain ⟨⟨envios, m⟩, hat, rfl⟩ := Option.map_eq_some_iff.mp h
      exact ⟨hcpu, envios, m, hat, rfl⟩
  · cases h

end Inversion

end SistemaConjunto

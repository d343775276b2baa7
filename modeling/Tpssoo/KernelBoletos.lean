import Tpssoo.KernelAsignacion
import Tpssoo.KernelLlamadas

/-!
# A token for each queued process

`sem_procesos_ready` and `sem_procesos_en_exit` count what is in `cola_ready` and in
`cola_exit`: a process is added with a post, or by a thread that is about to post, and taken by
the thread that took the token. Two insertions that overlap lose one of the processes, not its
token.
-/
namespace KernelBoletos

open EnterosC Protocolo KernelEstado KernelFunciones KernelHilos KernelVistas KernelPcbs
open KernelPresentes KernelLargoPlazo KernelLlamadas Entrelazado Tartamudeo

section Ley

/-- The two threads that wait for a queue. -/
inductive Consumo where
  | corto | gestor
  deriving DecidableEq, Repr

def Consumo.cola : Consumo → Estado
  | .corto => .ready
  | .gestor => .exit

def Consumo.sem : Consumo → Kernel → ℕ
  | .corto, k => k.semProcesosReady
  | .gestor, k => k.semProcesosEnExit

/-- A consumer after its wait and before it takes from the queue. -/
def Consumo.tiene : Consumo → Hilo → Bool
  | .corto, .cortoEsperaCpu | .corto, .cortoElige | .gestor, .gestorToma => true
  | _, _ => false

/-- A thread between its insertion in the queue and its `sem_post`. -/
def Consumo.debe : Consumo → Hilo → Bool
  | .corto, .escuchaCambiaReady _ _ | .gestor, .escuchaCambiaExit _ _ => true
  | _, _ => false

/-- Also of a thread in the middle of an action. -/
def Consumo.conBoleto (f : Consumo) : HiloPartido → Bool
  | .en h => f.tiene h
  | .enLista _ _ _ _ | .enPost _ _ => false

def Consumo.porPostear (f : Consumo) : HiloPartido → Bool
  | .en h => f.debe h
  | .enLista _ _ _ _ => false
  | .enPost _ _ => f = .gestor

end Ley

section Efectos

variable {c : ConfigKernel} {k k' k'' : Kernel} {a : Accion} {p : ℤ}

/-- As many tokens come as processes, for both queues. -/
def Neutra (k k' : Kernel) : Prop :=
  ∀ f : Consumo, f.sem k' + (k.colas f.cola).length = f.sem k + (k'.colas f.cola).length

theorem Neutra.refl : Neutra k k := fun _ => rfl

theorem Neutra.trans (h : Neutra k k') (h' : Neutra k' k'') : Neutra k k'' := by
  intro f
  have h₁ := h f
  have h₂ := h' f
  omega

/-- Neither queue nor semaphore changes. -/
theorem Neutra.igual (hcolas : ∀ f : Consumo, k'.colas f.cola = k.colas f.cola)
    (hready : k'.semProcesosReady = k.semProcesosReady)
    (hexit : k'.semProcesosEnExit = k.semProcesosEnExit) : Neutra k k' := by
  intro f
  rw [hcolas f]
  cases f with
  | corto => exact congrArg (· + _) hready
  | gestor => exact congrArg (· + _) hexit

end Efectos

section Saldos

variable {c : ConfigKernel} {k k' : Kernel} {a : Accion} {f : Consumo} {m n : ℕ}

end Saldos

section Pasos

variable {c : ConfigKernel} {k : Kernel} {l r : List HiloPartido} {p : AccionPartida}
  {f : Consumo}

def Consumo.ocupado (f : Consumo) (h : HiloPartido) : Bool := f.conBoleto h || f.porPostear h

/-- A list call made without `mutex_colas` ends on the queue that it read. -/
def Sola (k : Kernel) : AccionPartida → Prop
  | .escribe cola leida _ _ => k.colas cola = leida
  | _ => True

instance (k : Kernel) (p : AccionPartida) : Decidable (Sola k p) :=
  match p with
  | .escribe cola leida _ _ => inferInstanceAs (Decidable (k.colas cola = leida))
  | .entera _ | .lee _ | .agrega _ | .postea _ _ => isTrue trivial

/-- No other thread edits the queue of such a call meanwhile, and none follows a pointer to a
freed PCB. -/
def EnOrden (c : ConfigKernel) (e : ℕ × AccionPartida) (s : Sistema Kernel HiloPartido) : Prop :=
  Sola s.comun e.2 ∧ ((programaPartido c).efecto s.comun e.2).indefinido = false

instance (e : ℕ × AccionPartida) (s : Sistema Kernel HiloPartido) : Decidable (EnOrden c e s) :=
  inferInstanceAs (Decidable (_ ∧ _))

end Pasos

section Corridas

variable {c : ConfigKernel} {s : Sistema Kernel HiloPartido}

end Corridas

end KernelBoletos

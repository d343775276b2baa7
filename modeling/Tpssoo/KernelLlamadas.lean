import Tpssoo.KernelHilos

/-!
# List calls that may overlap

The threads of the kernel with two of their actions split. A list call that is made without
`mutex_colas` reads the queue and writes it later, so that what another thread does to the
queue in between is lost; and `finalizar_proceso` may be overtaken between its `list_add` and
its `sem_post`.
-/
namespace KernelLlamadas

open EnterosC Protocolo KernelEstado KernelFunciones KernelHilos Entrelazado Tartamudeo

section Programas

/-- A thread: at a point of `KernelHilos`, in a list call that it makes without the lock, with
what it has read and what it will write, or in `finalizar_proceso` after the unlock. `sigue` is
where it goes on. -/
inductive HiloPartido where
  | en (h : Hilo)
  | enLista (cola : Estado) (leida escrita : List ℤ) (sigue : List Hilo)
  | enPost (pcb : ℤ) (sigue : List Hilo)
  deriving DecidableEq, Repr

inductive AccionPartida where
  | entera (a : Accion)
  | lee (a : Accion)
  | escribe (cola : Estado) (leida escrita : List ℤ) (sigue : List Hilo)
  | agrega (a : Accion)
  | postea (pcb : ℤ) (sigue : List Hilo)
  deriving DecidableEq, Repr

/-- The queue that an action edits without `mutex_colas`. -/
def colaSinCandado (k : Kernel) : Accion → Option Estado
  | .escuchaAgregaExit _ _ => some .exit
  | .escuchaAgregaReady _ _ => some .ready
  | .escuchaSinDispositivo _ _ => some .running
  | .recibeRespuesta cpu _ _ _ _ | .recibeOtro cpu _ =>
    (k.cpus cpu).pcbEnEjecucion.map fun _ => .running
  | _ => none

/-- The process that an action of `finalizar_proceso` adds to `cola_exit`. -/
def finalizado : Accion → Option ℤ
  | .dumpFinaliza pcb | .dumpFinalizaTomado pcb | .escuchaFinalizaAgrega _ pcb
  | .escuchaFinalizaTomado _ pcb | .ioFinalizaAgrega pcb _ => some pcb
  | _ => none

variable (c : ConfigKernel) (k : Kernel)

def conCola (cola : Estado) (xs : List ℤ) : Kernel :=
  { k with colas := Function.update k.colas cola xs }

def origenPartido : AccionPartida → HiloPartido
  | .entera a | .lee a | .agrega a => .en ((programa c).origen a)
  | .escribe cola leida escrita sigue => .enLista cola leida escrita sigue
  | .postea pcb sigue => .enPost pcb sigue

def guardaPartida : AccionPartida → Prop
  | .entera a => (programa c).guarda k a ∧ colaSinCandado k a = none ∧ finalizado a = none
  | .lee a => (programa c).guarda k a ∧ (colaSinCandado k a).isSome
  | .agrega a => (programa c).guarda k a ∧ (finalizado a).isSome
  | .escribe _ _ _ _ | .postea _ _ => k.indefinido = false

/-- `finalizar_proceso` reads the PID for its log before it posts. -/
def efectoPartido : AccionPartida → Kernel
  | .entera a => (programa c).efecto k a
  | .lee a => { (programa c).efecto k a with colas := k.colas }
  | .escribe cola _ escrita _ => conCola k cola escrita
  | .agrega a => { (programa c).efecto k a with semProcesosEnExit := k.semProcesosEnExit }
  | .postea pcb _ => if (k.pcbs pcb).isNone then k.roto else k.postExit

def destinoPartido : AccionPartida → List HiloPartido
  | .entera a => ((programa c).destino k a).map .en
  | .lee a =>
    match colaSinCandado k a with
    | some cola => [.enLista cola (k.colas cola) (((programa c).efecto k a).colas cola)
        ((programa c).destino k a)]
    | none => []
  | .agrega a =>
    match finalizado a with
    | some pcb => [.enPost pcb ((programa c).destino k a)]
    | none => []
  | .escribe _ _ _ sigue | .postea _ sigue => sigue.map .en

def programaPartido : Programa Kernel HiloPartido AccionPartida where
  origen := origenPartido c
  guarda := guardaPartida c
  efecto := efectoPartido c
  destino := destinoPartido c

instance (p : AccionPartida) : Decidable ((programaPartido c).guarda k p) :=
  match p with
  | .entera a => inferInstanceAs (Decidable ((programa c).guarda k a ∧ _))
  | .lee a => inferInstanceAs (Decidable ((programa c).guarda k a ∧ _))
  | .agrega a => inferInstanceAs (Decidable ((programa c).guarda k a ∧ _))
  | .escribe _ _ _ _ => inferInstanceAs (Decidable (k.indefinido = false))
  | .postea _ _ => inferInstanceAs (Decidable (k.indefinido = false))

/-- A state of `KernelHilos`: no thread in a list call or about to post. -/
def entero (s : Sistema Kernel Hilo) : Sistema Kernel HiloPartido := ⟨s.comun, s.hilos.map .en⟩

end Programas

section Mitades

variable {c : ConfigKernel} {k : Kernel} {a : Accion} {e : Estado}

/-- A list call without the lock edits one queue. -/
theorem colas_sinCandado (h : colaSinCandado k a = some e) : ((programa c).efecto k a).colas =
    Function.update k.colas e (((programa c).efecto k a).colas e) := by
  have huna : ∀ {k' : Kernel} {xs : List ℤ}, k'.colas = Function.update k.colas e xs →
      k'.colas = Function.update k.colas e (k'.colas e) := by
    intro k' xs h
    rw [h, Function.update_self]
  have hninguna : ∀ {k' : Kernel}, k'.colas = k.colas →
      k'.colas = Function.update k.colas e (k'.colas e) := by
    intro k' h
    rw [h, Function.update_eq_self]
  cases a with
  | escuchaAgregaExit _ _ | escuchaAgregaReady _ _ | escuchaSinDispositivo _ _ =>
    cases h
    exact huna rfl
  | recibeRespuesta cpu fd pid pc motivo =>
    obtain ⟨pcb, -, rfl⟩ := Option.map_eq_some_iff.mp h
    dsimp only [programa, transicion, recibirRespuesta]
    split
    · exact hninguna rfl
    split
    · exact hninguna rfl
    split <;> exact huna rfl
  | recibeOtro cpu fd =>
    obtain ⟨pcb, hpcb, rfl⟩ := Option.map_eq_some_iff.mp h
    dsimp only [programa, transicion]
    rw [hpcb]
    exact huna rfl
  | _ => cases h

/-- The insertion of `finalizar_proceso`, and its post. -/
theorem post_finalizado {pcb : ℤ} (h : finalizado a = some pcb) :
    ((programaPartido c).efecto k (.agrega a)).postExit = (programa c).efecto k a := by
  cases a with
  | dumpFinaliza _ | dumpFinalizaTomado _ | escuchaFinalizaAgrega _ _ | escuchaFinalizaTomado _ _
  | ioFinalizaAgrega _ _ => rfl
  | _ => cases h

theorem pcbs_finalizado {pcb : ℤ} (h : finalizado a = some pcb) :
    ((programa c).efecto k a).pcbs = k.pcbs := by
  cases a with
  | dumpFinaliza _ | dumpFinalizaTomado _ | escuchaFinalizaAgrega _ _ | escuchaFinalizaTomado _ _
  | ioFinalizaAgrega _ _ => rfl
  | _ => cases h

end Mitades

section Refinamiento

variable {c : ConfigKernel} {s s₀ : Sistema Kernel Hilo}

/-- The process that `finalizar_proceso` finalises has not been freed. -/
def Finaliza (e : ℕ × Accion) (s : Sistema Kernel Hilo) : Prop :=
  ∀ pcb, finalizado e.2 = some pcb → (s.comun.pcbs pcb).isSome

/-- Two halves, one after the other. -/
theorem dos_pasos {k k' : Kernel} {l r : List HiloPartido} {p q : AccionPartida}
    {ds : List HiloPartido} (hp : (programaPartido c).guarda k p)
    (hmitad : (programaPartido c).destino k p = [(programaPartido c).origen q])
    (hq : (programaPartido c).guarda ((programaPartido c).efecto k p) q)
    (hk : (programaPartido c).efecto ((programaPartido c).efecto k p) q = k')
    (hds : (programaPartido c).destino ((programaPartido c).efecto k p) q = ds) :
    correr (paso (programaPartido c)) [(l.length, p), (l.length, q)]
      ⟨k, l ++ (programaPartido c).origen p :: r⟩ = some ⟨k', l ++ (ds ++ r)⟩ := by
  rw [correr_cons, paso_hace hp, hmitad, Option.bind_some, correr_cons, List.singleton_append,
    paso_hace hq, hk, hds, Option.bind_some, correr_nil]

/-- An action of `KernelHilos` is a step here, or two. -/
theorem accion_partida {k : Kernel} {l r : List Hilo} {a : Accion} (hg : (programa c).guarda k a)
    (hviva : ∀ pcb, finalizado a = some pcb → (k.pcbs pcb).isSome)
    (hdef : ((programa c).efecto k a).indefinido = false) :
    ∃ es, correr (paso (programaPartido c)) es (entero ⟨k, l ++ (programa c).origen a :: r⟩) =
      some (entero ⟨(programa c).efecto k a, l ++ ((programa c).destino k a ++ r)⟩) := by
  have hantes : entero ⟨k, l ++ (programa c).origen a :: r⟩ =
      ⟨k, l.map .en ++ .en ((programa c).origen a) :: r.map .en⟩ := by
    rw [entero, List.map_append, List.map_cons]
  have hluego : entero ⟨(programa c).efecto k a, l ++ ((programa c).destino k a ++ r)⟩ =
      ⟨(programa c).efecto k a, l.map .en ++ (((programa c).destino k a).map .en ++
        r.map .en)⟩ := by
    rw [entero, List.map_append, List.map_append]
  rw [hantes, hluego]
  cases hcola : colaSinCandado k a with
  | some cola =>
    refine ⟨_, dos_pasos (p := .lee a) (q := .escribe cola (k.colas cola)
      (((programa c).efecto k a).colas cola) ((programa c).destino k a)) ⟨hg, ?_⟩ ?_ hdef ?_ rfl⟩
    · rw [hcola]
      rfl
    · change destinoPartido c k (.lee a) = _
      rw [destinoPartido, hcola]
      rfl
    · have hcolas := colas_sinCandado (c := c) hcola
      change ({ (programa c).efecto k a with
        colas := Function.update k.colas cola (((programa c).efecto k a).colas cola) } : Kernel) = _
      rw [← hcolas]
  | none =>
    cases hfin : finalizado a with
    | none =>
      have hguarda : (programaPartido c).guarda k (.entera a) := ⟨hg, hcola, hfin⟩
      refine ⟨[((l.map HiloPartido.en).length, .entera a)], ?_⟩
      rw [correr_cons]
      exact congrArg (Option.bind · _) (paso_hace hguarda)
    | some pcb =>
      have hpost := post_finalizado (c := c) (k := k) hfin
      refine ⟨_, dos_pasos (p := .agrega a) (q := .postea pcb ((programa c).destino k a))
        ⟨hg, ?_⟩ ?_ hdef ?_ rfl⟩
      · rw [hfin]
        rfl
      · change destinoPartido c k (.agrega a) = _
        rw [destinoPartido, hfin]
        rfl
      · have hpcb := hviva pcb hfin
        rw [← pcbs_finalizado (c := c) (k := k) hfin] at hpcb
        change (if (((programa c).efecto k a).pcbs pcb).isNone then _ else _) = _
        rw [if_neg (by rw [Option.isNone_iff_eq_none]; exact Option.isSome_iff_ne_none.mp hpcb)]
        exact hpost

/-- A run of `KernelHilos` is one in which nothing overlaps. -/
theorem corrida_partida (h : Llega (programa c) Finaliza s₀ s)
    (hdef : s.comun.indefinido = false) :
    ∃ es, correr (paso (programaPartido c)) es (entero s₀) = some (entero s) := by
  obtain ⟨es, hC, hrun⟩ := h
  have hatras : ∀ {e : ℕ × Accion} {s s' : Sistema Kernel Hilo},
      paso (programa c) e s = some s' → s.comun.indefinido = false := by
    intro e s s' hp
    have hg := paso_guarda hp
    exact hg.1
  refine invariante_mientras (I := fun s => ∃ es, correr (paso (programaPartido c)) es
    (entero s₀) = some (entero s)) (D := fun s => s.comun.indefinido = false)
    (fun e s s' hp _ => hatras hp) ?_ ⟨[], rfl⟩ hC hrun hdef
  rintro e s s' ⟨es, hrun⟩ hviva hp hdef
  obtain ⟨l, r, hhilos, -, hg, rfl⟩ := paso_casos hp
  obtain ⟨k, hilos⟩ := s
  cases hhilos
  obtain ⟨es', hrun'⟩ := accion_partida (l := l) (r := r) hg hviva hdef
  refine ⟨es ++ es', ?_⟩
  rw [correr_append, hrun]
  exact hrun'

end Refinamiento

end KernelLlamadas

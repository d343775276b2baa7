import Tpssoo.KernelPedidos

/-!
# Each process in the queue of its state

A process that no thread is moving is once in the queue of its state, and a freed one in none. A
dump that cannot connect breaks it: `finalizar_proceso` puts the process in `cola_exit` while it
is still in `cola_blocked`. So does a CPU that takes a process out of `cola_ready` before the
thread that put it there has changed its state.
-/
namespace KernelUnLugar

open EnterosC Protocolo KernelEstado KernelFunciones KernelHilos KernelVistas KernelPcbs
open KernelPresentes KernelLargoPlazo KernelSaludos KernelSuspension KernelCpus KernelEjecucion
open KernelDispositivos
open KernelFlujos KernelLugares KernelPedidos Tartamudeo Entrelazado

/-- The process is once in the queue of its state and in no other, or it has been freed and is in
none. -/
def EnSuCola (k : Kernel) (p : ℤ) : Prop :=
  match estadoDe k p with
  | none => ∀ e, (k.colas e).count p = 0
  | some e => ∀ e', (k.colas e').count p = if e' = e then 1 else 0

/-- No thread is moving the process. -/
def Suelto (s : Sistema Kernel Hilo) (p : ℤ) : Prop :=
  (∀ x, (x, p) ∉ s.hilos.flatMap toca) ∧ ∀ e, (e, p) ∉ s.hilos.filterMap debe

theorem enSuCola_de_lugares {s : Sistema Kernel Hilo} {p : ℤ} (h : Lugares s) (hp : Suelto s p) :
    EnSuCola s.comun p := by
  rw [EnSuCola]
  rcases h.lugar p with ⟨hnone, hcero⟩ | ⟨x, e, hsome, hsolo, hcon⟩
  · rw [hnone]
    exact fun e => hcero (.cola e)
  · rw [hsome]
    cases x with
    | mano x =>
      have huno : 0 < veces s p (.mano x) := by
        rw [hsolo, if_pos rfl]
        exact Nat.one_pos
      exact absurd (List.count_pos_iff.mp huno) (hp.1 x)
    | cola e₀ =>
      rcases hcon with rfl | ⟨-, hdebe⟩
      · intro e'
        refine (hsolo (.cola e')).trans ?_
        simp only [Lugar.cola.injEq]
      · exact absurd hdebe (hp.2 e₀)

/-- In a run of clean steps every process that no thread is moving is in the queue of its state. -/
theorem pcb_en_un_lugar (c : ConfigKernel) (path : List Byte) (tamanio : ℤ)
    (absoluto : Option (List Byte))
    {s : Sistema Kernel Hilo} (h : Llega (programa c) (Limpio c)
      (arranque c path tamanio absoluto) s) {p : ℤ}
    (hp : Suelto s p) : EnSuCola s.comun p :=
  enSuCola_de_lugares (enOrden_corrida path tamanio absoluto (fun _ _ h => h) h).lugares hp

/-- Where each CPU has its own name, it answers for a process in `cola_exec`: the other steps that
are not clean are those of a dump that cannot connect and of a dispatch that comes too early. -/
theorem limpio_de_nombres {c : ConfigKernel} {k : Kernel} {l r : List Hilo} {a : Accion}
    (hI : Asignados ⟨k, l ++ (programa c).origen a :: r⟩) (hdump : ∀ p, a ≠ .dumpFallaConexion p)
    (hcorto : a = .cortoPlanifica → limpio c k (l ++ (programa c).origen a :: r) a = true) :
    limpio c k (l ++ (programa c).origen a :: r) a = true := by
  have hcpu : ∀ {cpu}, escuchaDe ((programa c).origen a) = some cpu →
      manejaDe ((programa c).origen a) = none →
        (k.cpus cpu).pcbEnEjecucion.all (fun q => decide (q ∈ k.colas .running)) = true := by
    intro cpu ho hno
    obtain ⟨hl, hr⟩ := sin_manejar cpu hI.escuchas ho
    cases hq : (k.cpus cpu).pcbEnEjecucion with
    | none => rfl
    | some q =>
      refine decide_eq_true (hI.ejecucion.enCola cpu q ⟨hq, fun hmem => ?_⟩)
      rw [List.filterMap_append, List.filterMap_cons_none hno, List.mem_append] at hmem
      exact hmem.elim hl hr
  cases a with
  | dumpFallaConexion p => exact absurd rfl (hdump p)
  | cortoPlanifica => exact hcorto rfl
  | recibeRespuesta cpu fd pid pc m => exact hcpu rfl rfl
  | recibeOtro cpu fd => exact hcpu rfl rfl
  | escuchaRevisa cpu => exact hcpu rfl rfl
  | _ => rfl

/-- In a run where each CPU has its own name, no dump fails to connect and no dispatch comes
before the change of state, every process that no thread is moving is in the queue of its state.
-/
theorem pcb_en_un_lugar_nombres (c : ConfigKernel) (path : List Byte) (tamanio : ℤ)
    (absoluto : Option (List Byte)) {s : Sistema Kernel Hilo}
    (h : Llega (programa c) (fun e s => NombreNuevo e s ∧ (∀ p, e.2 ≠ .dumpFallaConexion p) ∧
      (e.2 = .cortoPlanifica → Limpio c e s)) (arranque c path tamanio absoluto) s) {p : ℤ}
    (hp : Suelto s p) : EnSuCola s.comun p := by
  have hI : Asignados s ∧ EnOrden s := by
    refine invariante_llega (I := fun s => Asignados s ∧ EnOrden s) ?_
      ⟨asignados_inicial c path tamanio absoluto, enOrden_inicial c path tamanio absoluto⟩ h
    rintro k l r a ⟨hA, hE⟩ hg ⟨hnombre, hdump, hcorto⟩
    exact ⟨asignados_paso hA hg hnombre, enOrden_paso hE hg (limpio_de_nombres hA hdump hcorto)⟩
  exact enSuCola_de_lugares hI.2.lugares hp

def estados : List Estado :=
  [.new, .ready, .running, .blocked, .exit, .suspendedReady, .suspendedBlocked]

/-- What a run shows of a process. -/
def vistazo (s : Sistema Kernel Hilo) (p : ℤ) : Option Estado × List ℕ × Bool :=
  (estadoDe s.comun p, estados.map fun e => (s.comun.colas e).count p,
    (s.hilos.flatMap toca).all (fun x => decide (x.2 ≠ p)) &&
      (s.hilos.filterMap debe).all fun x => decide (x.2 ≠ p))

theorem suelto_de_vistazo {s : Sistema Kernel Hilo} {p : ℤ} (h : (vistazo s p).2.2 = true) :
    Suelto s p := by
  obtain ⟨htoca, hdebe⟩ := (Bool.and_eq_true _ _).mp h
  rw [List.all_eq_true] at htoca hdebe
  exact ⟨fun x hx => of_decide_eq_true (htoca _ hx) rfl, fun e he =>
    of_decide_eq_true (hdebe _ he) rfl⟩

/-- The first process ends its IO, runs again and waits for its dump. -/
theorem pcb_en_un_lugar_ejemplo : ∃ s, tras configuracion hastaVolcar = some s ∧
    estadoDe s.comun 0 = some .blocked ∧ EnSuCola s.comun 0 := by
  have hobs : (tras configuracion hastaVolcar).map (fun s => vistazo s 0) =
      some (some .blocked, [0, 0, 0, 1, 0, 0, 0], true) := by decide +kernel
  have hC : Cumple (paso (programa configuracion)) (Limpio configuracion)
      (agenda (programa configuracion) hastaVolcar (arranque configuracion [65] 10 none))
      (arranque configuracion [65] 10 none) := by decide +kernel
  obtain ⟨s, hs, h⟩ := Option.map_eq_some_iff.mp hobs
  have hsuelto : Suelto s 0 := suelto_de_vistazo (by rw [h])
  exact ⟨s, hs, congrArg Prod.fst h, pcb_en_un_lugar configuracion [65] 10 none ⟨_, hC, hs⟩ hsuelto⟩

/-- The thread of the dump cannot connect to Memoria. -/
def hastaFallarVolcado : List Accion :=
  hastaVolcar ++ [.dumpFallaConexion 0, .dumpFinaliza 0]

/-- The process is in `cola_exit` and still in `cola_blocked`. -/
theorem volcado_en_dos_colas : ∃ s, tras configuracion hastaFallarVolcado = some s ∧ Suelto s 0 ∧
    ¬ EnSuCola s.comun 0 := by
  have hobs : (tras configuracion hastaFallarVolcado).map (fun s => vistazo s 0) =
      some (some .exit, [0, 0, 0, 1, 1, 0, 0], true) := by decide +kernel
  obtain ⟨s, hs, h⟩ := Option.map_eq_some_iff.mp hobs
  refine ⟨s, hs, suelto_de_vistazo (by rw [h]), fun hcola => ?_⟩
  have hestado : estadoDe s.comun 0 = some .exit := congrArg Prod.fst h
  rw [EnSuCola, hestado] at hcola
  have hcuenta : (s.comun.colas .blocked).count 0 = 1 :=
    congrArg (fun x : Option Estado × List ℕ × Bool => x.2.1.getD 3 0) h
  have hcero := hcola .blocked
  rw [hcuenta] at hcero
  cases hcero

end KernelUnLugar

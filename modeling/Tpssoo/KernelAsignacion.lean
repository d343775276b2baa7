import Tpssoo.KernelCerrojo
import Tpssoo.KernelEjecucion

/-!
# The tickets of the CPUs

`sem_cpu_libre` and the ticket of the planner count the free CPUs of `lista_cpus`, but for
those that disconnect. A CPU that disconnects while it executes a process stops the thread
that listens to it for ever.
-/
namespace KernelAsignacion

open EnterosC Protocolo KernelEstado KernelFunciones KernelHilos KernelVistas KernelPcbs
open KernelCpus KernelEjecucion KernelCerrojo Entrelazado Tartamudeo

section Ley

/-- No thread handles a response or a disconnection of a CPU. -/
structure Reposo (s : Sistema Kernel Hilo) : Prop where
  hilos : ∀ h ∈ s.hilos, manejaDe h = none ∧ despideDe h = none
  definido : s.comun.indefinido = false

structure Asignacion (s : Sistema Kernel Hilo) : Prop where
  tickets : s.comun.semCpuLibre + s.hilos.count .cortoElige =
    s.comun.listaCpus.countP fun cpu => (s.comun.cpus cpu).cpuLibre
  ocupadas : ∀ cpu ∈ s.comun.listaCpus, (s.comun.cpus cpu).cpuLibre = false →
    ∃ p, (s.comun.cpus cpu).pcbEnEjecucion = some p ∧ p ∈ s.comun.colas .running
  ejecutados : ∀ p ∈ s.comun.colas .running,
    ∃! cpu, cpu ∈ s.comun.listaCpus ∧ (s.comun.cpus cpu).pcbEnEjecucion = some p

/-- No CPU connects under the name of one that is registered, and none disconnects without a
process while the planner holds the only ticket. -/
def ordenada (k : Kernel) : Accion → Bool
  | .cpuRegistra _ nombre => (buscarCpuPorNombre k nombre).isNone
  | .recibeNull cpu _ => (k.cpus cpu).pcbEnEjecucion.isSome || decide (0 < k.semCpuLibre)
  | _ => true

def Ordenada (e : ℕ × Accion) (s : Sistema Kernel Hilo) : Prop := ordenada s.comun e.2 = true

instance (e : ℕ × Accion) (s : Sistema Kernel Hilo) : Decidable (Ordenada e s) :=
  inferInstanceAs (Decidable (_ = true))

theorem nombreNuevo_de_ordenada {e : ℕ × Accion} {s : Sistema Kernel Hilo} (h : Ordenada e s) :
    NombreNuevo e s := by
  intro fd nombre he
  rw [Ordenada, he] at h
  exact Option.isNone_iff_eq_none.mp h

end Ley

section Cuentas

variable {k k' : Kernel} {xs : List ℕ} {cpu : ℕ}

def libres (k : Kernel) (xs : List ℕ) : ℕ := xs.countP fun cpu => (k.cpus cpu).cpuLibre

theorem libres_congr (h : ∀ cpu ∈ xs, (k'.cpus cpu).cpuLibre = (k.cpus cpu).cpuLibre) :
    libres k' xs = libres k xs :=
  List.countP_congr fun cpu hcpu => by rw [h cpu hcpu]

theorem libres_append (ys : List ℕ) : libres k (xs ++ ys) = libres k xs + libres k ys :=
  List.countP_append

/-- A CPU of the list apart from the others. -/
theorem libres_erase (hmem : cpu ∈ xs) : libres k xs = libres k [cpu] +
    libres k (xs.erase cpu) := by
  rw [← libres_append]
  exact (List.perm_cons_erase hmem).countP_eq _

theorem libres_una : libres k [cpu] = if (k.cpus cpu).cpuLibre then 1 else 0 := by
  rw [libres, List.countP_singleton]

/-- One CPU of the list changes. -/
theorem libres_cambia (hnodup : xs.Nodup) (hmem : cpu ∈ xs)
    (h : ∀ cpu', cpu' ≠ cpu → (k'.cpus cpu').cpuLibre = (k.cpus cpu').cpuLibre) :
    libres k' xs + libres k [cpu] = libres k xs + libres k' [cpu] := by
  have hresto : libres k' (xs.erase cpu) = libres k (xs.erase cpu) :=
    libres_congr fun cpu' hcpu' => h cpu' (hnodup.mem_erase_iff.mp hcpu').1
  rw [libres_erase (k := k') hmem, libres_erase (k := k) hmem, hresto]
  omega

/-- The search goes round the whole list. -/
theorem obtener_none (h : obtenerCpuLibre k = none) (hmem : cpu ∈ k.listaCpus) :
    (k.cpus cpu).cpuLibre = false := by
  obtain ⟨j, hj, hget⟩ := List.getElem_of_mem hmem
  have hindice : j ∈ indices k := by
    refine List.mem_map.mpr ⟨((j - k.ultimoCpuUsado - 1) % k.listaCpus.length).toNat, ?_, ?_⟩
    · have hlen : (0 : ℤ) < k.listaCpus.length := by omega
      have hlt := Int.emod_lt_of_pos (j - k.ultimoCpuUsado - 1) hlen
      have hpos := Int.emod_nonneg (j - k.ultimoCpuUsado - 1) hlen.ne'
      rw [List.mem_range]
      omega
    · have hlen : (0 : ℤ) < k.listaCpus.length := by omega
      have hpos := Int.emod_nonneg (j - k.ultimoCpuUsado - 1) hlen.ne'
      rw [Int.toNat_of_nonneg hpos, Int.add_emod_emod]
      have hsuma : k.ultimoCpuUsado + 1 + (j - k.ultimoCpuUsado - 1) = (j : ℤ) := by omega
      rw [hsuma, Int.emod_eq_of_lt (Int.natCast_nonneg j) (by omega), Int.toNat_natCast]
  have hnada := List.findSome?_eq_none_iff.mp h j hindice
  rw [List.getElem?_eq_getElem hj, Option.bind_some, hget] at hnada
  cases hl : (k.cpus cpu).cpuLibre with
  | false => rfl
  | true =>
    rw [hl] at hnada
    cases hnada

end Cuentas

section Efectos

variable {c : ConfigKernel} {k : Kernel} {a : Accion}

/-- The CPU that a thread is about to take out of the list. -/
def quitaDe : Hilo → Option ℕ
  | .escuchaQuita cpu => some cpu
  | _ => none

/-- The actions that count CPUs or their tickets. -/
def cuenta : Accion → Bool
  | .cortoTomaCpu | .cortoPlanifica | .cpuRegistra _ _ | .recibeNull _ _ | .escuchaLibera _
  | .escuchaQuita _ | .escuchaCierra _ => true
  | _ => false

theorem sem_efecto (ha : cuenta a = false) :
    ((programa c).efecto k a).semCpuLibre = k.semCpuLibre := by
  cases a with
  | cortoTomaCpu | cortoPlanifica | cpuRegistra _ _ | recibeNull _ _ | escuchaLibera _
  | escuchaQuita _ | escuchaCierra _ => cases ha
  | largoElige =>
    dsimp only [programa, transicion, elegirCandidato]
    split <;> rfl
  | largoEnvia pcb susp | gestorEnvia pcb | dumpEnvia pcb =>
    dsimp only [programa, transicion]
    split <;> rfl
  | largoResuelve pcb susp ok =>
    cases ok with
    | false => rfl
    | true =>
      obtain ⟨_, _, h, -⟩ := admitir_eq c k pcb susp
      exact (congrArg Kernel.semCpuLibre h :)
  | gestorToma =>
    dsimp only [programa, transicion]
    split <;> rfl
  | gestorLibera pcb ok =>
    dsimp only [programa, transicion]
    repeat' split
    all_goals rfl
  | suspensionVence pid desde bloqueo =>
    dsimp only [programa, transicion]
    repeat' split
    all_goals rfl
  | suspensionResuelve ok =>
    dsimp only [programa, transicion]
    split <;> rfl
  | dumpResuelve pcb ok =>
    obtain ⟨_, _, _, _, _, _, h⟩ := resolverDump_eq k pcb ok
    exact (congrArg Kernel.semCpuLibre h :)
  | interruptRegistra fd nombre =>
    dsimp only [programa, transicion]
    split <;> rfl
  | recibeInitProc cpu fd path tamanio absoluto =>
    dsimp only [programa, transicion, crearPcb]
    split <;> split <;> rfl
  | recibeRespuesta cpu fd q pc motivo =>
    dsimp only [programa, transicion, recibirRespuesta]
    repeat' split
    all_goals rfl
  | recibeOtro cpu fd =>
    dsimp only [programa, transicion]
    split <;> rfl
  | escuchaBloquea cpu pcb dispositivo duracion =>
    dsimp only [programa, transicion]
    split <;> rfl
  | escuchaEncola cpu pcb grupo duracion =>
    dsimp only [programa, transicion, encolarSolicitud]
    split <;> rfl
  | escuchaDesaloja cpu pcb =>
    obtain ⟨_, _, h, -⟩ := desalojar_eq c k pcb
    exact (congrArg Kernel.semCpuLibre h :)
  | escuchaRevisa cpu =>
    dsimp only [programa, transicion]
    split <;> rfl
  | ioRegistra fd nombre =>
    dsimp only [programa, transicion, registrarInstancia]
    split <;> rfl
  | ioDespacha grupo =>
    dsimp only [programa, transicion, despacharGrupo]
    split <;> rfl
  | ioTermina fd nombre terminadas q =>
    dsimp only [programa, transicion, manejarFinIo]
    split
    · rfl
    · obtain ⟨_, _, _, _, _, _, h, -⟩ := despertarDeIo_eq c k q
      exact (congrArg Kernel.semCpuLibre h :)
  | ioDesconecta fd nombre terminadas =>
    dsimp only [programa, transicion, manejarDesconexionIo]
    split
    · rfl
    split
    · rfl
    split
    · rfl
    split
    · next g₁ _ _ =>
        obtain ⟨_, _, h⟩ := vaciarEspera_eq k g₁.colaEsperaCompartida
        exact (congrArg Kernel.semCpuLibre h :)
    · rfl
  | _ => rfl

theorem libre_efecto (ha : cuenta a = false) :
    (∀ cpu, (((programa c).efecto k a).cpus cpu).cpuLibre = (k.cpus cpu).cpuLibre) ∧
      ((programa c).efecto k a).listaCpus = k.listaCpus := by
  cases hre : reasigna a with
  | false =>
    have h := mismas_efecto (c := c) (k := k) hre
    exact ⟨h.libre, h.lista⟩
  | true =>
    cases a with
    | escuchaFinalizaTomado cpu pcb =>
      refine ⟨fun cpu' => ?_, rfl⟩
      dsimp only [programa, transicion]
      by_cases heq : cpu' = cpu
      · subst heq
        rw [Kernel.conCpu_misma]
        rfl
      · rw [Kernel.conCpu_otra _ _ heq]
        rfl
    | cortoPlanifica | cpuRegistra _ _ | escuchaLibera _ | escuchaQuita _ | escuchaCierra _ =>
      cases ha
    | _ => cases hre

theorem hilos_efecto (ha : cuenta a = false) :
    ((programa c).destino k a).count .cortoElige = [(programa c).origen a].count .cortoElige ∧
      ((programa c).destino k a).filterMap quitaDe = [(programa c).origen a].filterMap quitaDe := by
  cases a with
  | cortoTomaCpu | cortoPlanifica | cpuRegistra _ _ | recibeNull _ _ | escuchaLibera _
  | escuchaQuita _ | escuchaCierra _ => cases ha
  | recibeRespuesta cpu fd q pc motivo =>
    dsimp only [programa, transicion, trasRespuesta]
    split
    · exact ⟨rfl, rfl⟩
    split
    · exact ⟨rfl, rfl⟩
    split
    · exact ⟨rfl, rfl⟩
    · cases motivo <;> exact ⟨rfl, rfl⟩
  | _ =>
    dsimp only [programa, transicion, trasDump]
    repeat' split
    all_goals exact ⟨rfl, rfl⟩

end Efectos

section Pasos

variable {c : ConfigKernel} {k : Kernel} {l r : List Hilo} {a : Accion}

/-- The tickets of the semaphore, that of the planner and those of the free CPUs that leave. -/
def Cuadra (s : Sistema Kernel Hilo) : Prop :=
  s.comun.semCpuLibre + s.hilos.count .cortoElige + libres s.comun (s.hilos.filterMap quitaDe) =
    libres s.comun s.comun.listaCpus

/-- The thread listens to a CPU that was lost with a process, and will wait for itself. -/
def colgado (k : Kernel) : Hilo → Bool
  | .escuchaQuita cpu | .escuchaRevisa cpu => (k.cpus cpu).pcbEnEjecucion.isSome
  | .escuchaFinalizaTomado _ _ => k.mutexColas.isSome
  | _ => false

def Colgado (s : Sistema Kernel Hilo) : Prop := ∃ h ∈ s.hilos, colgado s.comun h = true

theorem cuadra_iff {k' : Kernel} {ds : List Hilo} :
    Cuadra ⟨k', l ++ (ds ++ r)⟩ ↔ k'.semCpuLibre + (l.count .cortoElige + (ds.count .cortoElige +
      r.count .cortoElige)) + (libres k' (l.filterMap quitaDe) + (libres k' (ds.filterMap quitaDe) +
        libres k' (r.filterMap quitaDe))) = libres k' k'.listaCpus := by
  rw [Cuadra, List.count_append, List.count_append, List.filterMap_append, List.filterMap_append,
    libres_append, libres_append]

theorem mutex_tomado (hg : (programa c).guarda k a) (h : k.mutexColas.isSome = true) :
    ((programa c).efecto k a).mutexColas.isSome = true := by
  rcases mutex_efecto c k a with heq | ⟨pcb, q, rfl, -⟩ | ⟨cpu, pcb, rfl, -⟩
  · rw [heq]
    exact h
  · have hlibre : libre k = true := hg.2
    rw [libre, Option.isNone_iff_eq_none] at hlibre
    rw [hlibre] at h
    cases h
  · have hlibre : libre k = true := hg.2
    rw [libre, Option.isNone_iff_eq_none] at hlibre
    rw [hlibre] at h
    cases h

/-- A thread that waits for itself goes on waiting. -/
theorem colgado_paso (hI : Escuchas ⟨k, l ++ (programa c).origen a :: r⟩)
    (hg : (programa c).guarda k a)
    (hS : NombreNuevo (l.length, a) ⟨k, l ++ (programa c).origen a :: r⟩)
    (h : Colgado ⟨k, l ++ (programa c).origen a :: r⟩) :
    Colgado ⟨(programa c).efecto k a, l ++ ((programa c).destino k a ++ r)⟩ := by
  obtain ⟨h, hmem, hcol⟩ := h
  have hmem : h ∈ l ++ (programa c).origen a :: r := hmem
  have hcol : colgado k h = true := hcol
  have hotro : h ∈ l ++ r → Colgado ⟨(programa c).efecto k a,
      l ++ ((programa c).destino k a ++ r)⟩ := by
    intro hh
    have hat := hI.hilos h hmem
    have hsolo : ∀ cpu, escuchaDe h = some cpu → escuchaDe ((programa c).origen a) ≠ some cpu :=
      fun cpu hcpu ho => hI.unico.solo ho (List.mem_filterMap.mpr ⟨h, hh, hcpu⟩)
    refine ⟨h, ?_, ?_⟩
    · simp only [List.mem_append] at hh ⊢
      exact hh.imp_right Or.inr
    · cases h with
      | escuchaQuita cpu =>
        rcases (cpu_ajena hS (hat.conocida cpu rfl) (hsolo cpu rfl)).1 with heq | ⟨hlibre, hlista⟩
        · rw [colgado] at hcol ⊢
          rwa [heq]
        · rw [colgado, (hI.lista.libres cpu hlista).2.mp hlibre] at hcol
          cases hcol
      | escuchaRevisa cpu =>
        rcases (cpu_ajena hS (hat.conocida cpu rfl) (hsolo cpu rfl)).1 with heq | ⟨-, hlista⟩
        · rw [colgado] at hcol ⊢
          rwa [heq]
        · exact absurd hlista (hat.fuera cpu rfl)
      | escuchaFinalizaTomado cpu pcb => exact mutex_tomado hg hcol
      | _ => cases hcol
  rcases List.mem_append.mp hmem with hh | hh
  · exact hotro (List.mem_append_left _ hh)
  rcases List.mem_cons.mp hh with rfl | hh
  · -- the thread itself moves
    cases a with
    | escuchaQuita cpu =>
      exact ⟨.escuchaRevisa cpu, List.mem_append_right _ List.mem_cons_self, hcol⟩
    | escuchaRevisa cpu =>
      obtain ⟨pcb, hpcb⟩ := Option.isSome_iff_exists.mp hcol
      dsimp only [programa, transicion]
      rw [hpcb]
      exact ⟨.escuchaFinalizaTomado cpu pcb, List.mem_append_right _ List.mem_cons_self, rfl⟩
    | escuchaFinalizaTomado cpu pcb =>
      have hlibre : libre k = true := hg.2
      have hcol : k.mutexColas.isSome = true := hcol
      rw [libre, Option.isNone_iff_eq_none] at hlibre
      rw [hlibre] at hcol
      cases hcol
    | _ => cases hcol
  · exact hotro (List.mem_append_right _ hh)

/-- The CPU is not one of those that other threads are about to take out. -/
theorem no_quita (cpu : ℕ) (hI : Escuchas ⟨k, l ++ (programa c).origen a :: r⟩)
    (ho : escuchaDe ((programa c).origen a) = some cpu) :
    cpu ∉ l.filterMap quitaDe ∧ cpu ∉ r.filterMap quitaDe := by
  have hquita : ∀ h, quitaDe h = some cpu → escuchaDe h = some cpu := by
    intro h hh
    cases h <;> first | exact hh | cases hh
  have hsolo := hI.unico.solo ho
  rw [List.filterMap_append, List.mem_append, not_or] at hsolo
  constructor
  · intro hmem
    obtain ⟨h, hh, hm⟩ := List.mem_filterMap.mp hmem
    exact hsolo.1 (List.mem_filterMap.mpr ⟨h, hh, hquita h hm⟩)
  · intro hmem
    obtain ⟨h, hh, hm⟩ := List.mem_filterMap.mp hmem
    exact hsolo.2 (List.mem_filterMap.mpr ⟨h, hh, hquita h hm⟩)

theorem cuadra_otra (hE : Cuadra ⟨k, l ++ (programa c).origen a :: r⟩) (ha : cuenta a = false) :
    Cuadra ⟨(programa c).efecto k a, l ++ ((programa c).destino k a ++ r)⟩ := by
  obtain ⟨hlibre, hlista⟩ := libre_efecto (c := c) (k := k) ha
  obtain ⟨helige, hquita⟩ := hilos_efecto (c := c) (k := k) ha
  rw [← List.singleton_append (x := (programa c).origen a)] at hE
  rw [cuadra_iff] at hE ⊢
  rw [sem_efecto ha, helige, hquita, hlista]
  simp only [libres_congr fun cpu _ => hlibre cpu]
  exact hE

theorem libres_otras {k' : Kernel} {cpu : ℕ} {xs : List ℕ} (hno : cpu ∉ xs)
    (h : ∀ cpu', cpu' ≠ cpu → (k'.cpus cpu').cpuLibre = (k.cpus cpu').cpuLibre) :
    libres k' xs = libres k xs :=
  libres_congr fun cpu' hmem => h cpu' fun heq => hno (heq ▸ hmem)

/-- What the thread that moves has to balance. -/
theorem cuadra_de {k' : Kernel} {o : Hilo} {ds : List Hilo} (hE : Cuadra ⟨k, l ++ o :: r⟩)
    (hl : libres k' (l.filterMap quitaDe) = libres k (l.filterMap quitaDe))
    (hr : libres k' (r.filterMap quitaDe) = libres k (r.filterMap quitaDe))
    (h : k'.semCpuLibre + ds.count .cortoElige + libres k' (ds.filterMap quitaDe) +
        libres k k.listaCpus = k.semCpuLibre + [o].count .cortoElige +
          libres k ([o].filterMap quitaDe) + libres k' k'.listaCpus) :
    Cuadra ⟨k', l ++ (ds ++ r)⟩ := by
  rw [← List.singleton_append (x := o), cuadra_iff] at hE
  rw [cuadra_iff, hl, hr]
  omega

theorem cuadra_planifica (hI : Asignados ⟨k, l ++ (programa c).origen .cortoPlanifica :: r⟩)
    (hE : Cuadra ⟨k, l ++ (programa c).origen .cortoPlanifica :: r⟩)
    (hdef : ((programa c).efecto k .cortoPlanifica).indefinido = false) :
    Cuadra ⟨(programa c).efecto k .cortoPlanifica,
      l ++ ((programa c).destino k .cortoPlanifica ++ r)⟩ ∨
      Colgado ⟨(programa c).efecto k .cortoPlanifica,
        l ++ ((programa c).destino k .cortoPlanifica ++ r)⟩ := by
  have hE' := hE
  rw [← List.singleton_append (x := (programa c).origen .cortoPlanifica), cuadra_iff] at hE'
  have huno : [(programa c).origen .cortoPlanifica].count .cortoElige = 1 := rfl
  have hcero : ((programa c).destino k .cortoPlanifica).count .cortoElige = 0 := rfl
  have hquita : ([(programa c).origen .cortoPlanifica].filterMap quitaDe) = [] := rfl
  have hquita' : (((programa c).destino k .cortoPlanifica).filterMap quitaDe) = [] := rfl
  rw [huno, hquita] at hE'
  rcases planificar_casos c k with h | h | ⟨pcb, resto, -, hlibre, h⟩ |
    ⟨pcb, resto, i, cpu, -, hlibre, h⟩
  · left
    have hefecto : (programa c).efecto k .cortoPlanifica = k.postReady.postCpuLibre := h
    rw [cuadra_iff, hcero, hquita', hefecto]
    have hsem : k.postReady.postCpuLibre.semCpuLibre = k.semCpuLibre + 1 := rfl
    have hlibres : ∀ xs, libres k.postReady.postCpuLibre xs = libres k xs := fun xs => rfl
    have hlista : k.postReady.postCpuLibre.listaCpus = k.listaCpus := rfl
    rw [hsem, hlibres, hlibres, hlibres, hlibres, hlista]
    omega
  · have hefecto : (programa c).efecto k .cortoPlanifica = k.roto := h
    rw [hefecto] at hdef
    cases hdef
  · -- the ticket of the planner is that of a free CPU
    have hpos : 0 < libres k k.listaCpus := by omega
    obtain ⟨cpu, hmem, hl⟩ := List.countP_pos_iff.mp hpos
    rw [obtener_none hlibre hmem] at hl
    cases hl
  · have hefecto : (programa c).efecto k .cortoPlanifica = despachado k pcb resto i cpu := h
    obtain ⟨hmem, hl⟩ := obtener_mem hlibre
    have hmisma : (despachado k pcb resto i cpu).cpus cpu =
        { k.cpus cpu with cpuLibre := false, pcbEnEjecucion := some pcb } :=
          Function.update_self _ _ _
    have hotra : ∀ cpu', cpu' ≠ cpu → ((despachado k pcb resto i cpu).cpus cpu').cpuLibre =
        (k.cpus cpu').cpuLibre := fun cpu' hne =>
      congrArg Cpu.cpuLibre (Function.update_of_ne hne _ _)
    by_cases hse : .escuchaQuita cpu ∈ l ++ r
    · -- the CPU that leaves has a process now
      right
      refine ⟨.escuchaQuita cpu, ?_, ?_⟩
      · simp only [List.mem_append] at hse ⊢
        exact hse.imp_right Or.inr
      · rw [hefecto, colgado, hmisma]
        rfl
    · left
      have hno : cpu ∉ (l ++ r).filterMap quitaDe := by
        intro hm
        obtain ⟨h, hh, hm⟩ := List.mem_filterMap.mp hm
        cases h with
        | escuchaQuita cpu' =>
          cases hm
          exact hse hh
        | _ => cases hm
      rw [List.filterMap_append, List.mem_append, not_or] at hno
      have hcambia : libres (despachado k pcb resto i cpu) k.listaCpus + libres k [cpu] =
          libres k k.listaCpus + libres (despachado k pcb resto i cpu) [cpu] :=
        libres_cambia hI.escuchas.lista.nodup hmem hotra
      have hlista : (despachado k pcb resto i cpu).listaCpus = k.listaCpus := rfl
      have hsem : (despachado k pcb resto i cpu).semCpuLibre = k.semCpuLibre := rfl
      rw [libres_una, libres_una, hl, hmisma] at hcambia
      rw [cuadra_iff, hcero, hquita', hefecto, hsem, hlista, libres_otras hno.1 hotra,
        libres_otras hno.2 hotra]
      dsimp only at hcambia hE'
      have hvacia : ∀ k, libres k [] = 0 := fun _ => rfl
      rw [hvacia] at hE' ⊢
      simp only [Bool.false_eq_true, if_true, if_false] at hcambia
      omega

theorem cuadra_paso (hI : Asignados ⟨k, l ++ (programa c).origen a :: r⟩)
    (hg : (programa c).guarda k a)
    (hC : Ordenada (l.length, a) ⟨k, l ++ (programa c).origen a :: r⟩)
    (hdef : ((programa c).efecto k a).indefinido = false)
    (hE : Cuadra ⟨k, l ++ (programa c).origen a :: r⟩) :
    Cuadra ⟨(programa c).efecto k a, l ++ ((programa c).destino k a ++ r)⟩ ∨
      Colgado ⟨(programa c).efecto k a, l ++ ((programa c).destino k a ++ r)⟩ := by
  cases ha : cuenta a with
  | false => exact Or.inl (cuadra_otra hE ha)
  | true =>
    have hat := hI.escuchas.origen
    cases a with
    | cortoPlanifica => exact cuadra_planifica hI hE hdef
    | cortoTomaCpu =>
      left
      have hpos : 0 < k.semCpuLibre := of_decide_eq_true hg.2
      refine cuadra_de hE rfl rfl ?_
      have hsem : ((programa c).efecto k .cortoTomaCpu).semCpuLibre = k.semCpuLibre - 1 := rfl
      have hlista : libres ((programa c).efecto k .cortoTomaCpu)
          ((programa c).efecto k .cortoTomaCpu).listaCpus = libres k k.listaCpus := rfl
      have huno : ((programa c).destino k .cortoTomaCpu).count .cortoElige = 1 := rfl
      have hcero : [(programa c).origen .cortoTomaCpu].count .cortoElige = 0 := rfl
      have hquita : libres ((programa c).efecto k .cortoTomaCpu)
          (((programa c).destino k .cortoTomaCpu).filterMap quitaDe) = libres k
            ([(programa c).origen .cortoTomaCpu].filterMap quitaDe) := rfl
      omega
    | cpuRegistra fd nombre =>
      left
      have hnueva := registrar_nueva fd (nombreNuevo_de_ordenada hC fd nombre rfl)
      have hefecto : (programa c).efecto k (.cpuRegistra fd nombre) =
          registrarCpu k fd nombre := rfl
      have hotra : ∀ cpu', cpu' ≠ k.totalCpus → ((registrarCpu k fd nombre).cpus cpu').cpuLibre =
          (k.cpus cpu').cpuLibre := by
        intro cpu' hne
        rw [hnueva]
        exact congrArg Cpu.cpuLibre (Function.update_of_ne hne _ _)
      have hconocida : ∀ h ∈ l ++ (programa c).origen (.cpuRegistra fd nombre) :: r,
          quitaDe h ≠ some k.totalCpus := by
        intro h hh hq
        cases h with
        | escuchaQuita cpu =>
          have hlt := (hI.escuchas.hilos _ hh).conocida cpu rfl
          cases hq
          exact absurd hlt (lt_irrefl _)
        | _ => cases hq
      have hl : k.totalCpus ∉ l.filterMap quitaDe := by
        intro hm
        obtain ⟨h, hh, hq⟩ := List.mem_filterMap.mp hm
        exact hconocida h (List.mem_append_left _ hh) hq
      have hr : k.totalCpus ∉ r.filterMap quitaDe := by
        intro hm
        obtain ⟨h, hh, hq⟩ := List.mem_filterMap.mp hm
        exact hconocida h (List.mem_append_right _ (List.mem_cons_of_mem _ hh)) hq
      have hfuera : k.totalCpus ∉ k.listaCpus := fun hmem =>
        absurd (hI.escuchas.lista.libres _ hmem).1 (lt_irrefl _)
      rw [hefecto]
      refine cuadra_de hE (libres_otras hl hotra) (libres_otras hr hotra) ?_
      have hlista : libres (registrarCpu k fd nombre) (registrarCpu k fd nombre).listaCpus =
          libres k k.listaCpus + 1 := by
        have hlista' : (registrarCpu k fd nombre).listaCpus = k.listaCpus ++ [k.totalCpus] := by
          rw [hnueva]
        have hmisma : (registrarCpu k fd nombre).cpus k.totalCpus =
            ⟨nombre, some fd, none, true, none⟩ := by
          rw [hnueva]
          exact Function.update_self _ _ _
        rw [hlista', libres_append, libres_una, hmisma, libres_otras hfuera hotra]
        rfl
      have hsem : (registrarCpu k fd nombre).semCpuLibre = k.semCpuLibre + 1 := by
        rw [hnueva]
      have hcero : [(programa c).origen (.cpuRegistra fd nombre)].count .cortoElige = 0 := rfl
      have hcero' : ((programa c).destino k (.cpuRegistra fd nombre)).count .cortoElige = 0 := rfl
      have hquita : libres (registrarCpu k fd nombre)
          (((programa c).destino k (.cpuRegistra fd nombre)).filterMap quitaDe) = 0 := rfl
      have hquita' : libres k ([(programa c).origen (.cpuRegistra fd nombre)].filterMap
          quitaDe) = 0 := rfl
      omega
    | recibeNull cpu fd =>
      cases hen : (k.cpus cpu).pcbEnEjecucion with
      | some p =>
        right
        refine ⟨.escuchaQuita cpu, List.mem_append_right _ List.mem_cons_self, ?_⟩
        exact (congrArg Option.isSome hen).trans rfl
      | none =>
        left
        have hpos : 0 < k.semCpuLibre := by
          have h : ordenada k (.recibeNull cpu fd) = true := hC
          rw [ordenada, hen] at h
          exact of_decide_eq_true h
        have hl : (k.cpus cpu).cpuLibre = true :=
          (hI.escuchas.lista.libres cpu (hat.dentro cpu rfl rfl)).2.mpr hen
        refine cuadra_de hE rfl rfl ?_
        have hsem : ((programa c).efecto k (.recibeNull cpu fd)).semCpuLibre =
            k.semCpuLibre - 1 := rfl
        have hlista : libres ((programa c).efecto k (.recibeNull cpu fd))
            ((programa c).efecto k (.recibeNull cpu fd)).listaCpus = libres k k.listaCpus := rfl
        have hcero : [(programa c).origen (.recibeNull cpu fd)].count .cortoElige = 0 := rfl
        have hcero' : ((programa c).destino k (.recibeNull cpu fd)).count .cortoElige = 0 := rfl
        have hquita : libres ((programa c).efecto k (.recibeNull cpu fd))
            (((programa c).destino k (.recibeNull cpu fd)).filterMap quitaDe) = 1 := by
          have hlibres : libres ((programa c).efecto k (.recibeNull cpu fd))
            (((programa c).destino k (.recibeNull cpu fd)).filterMap quitaDe) =
              libres k [cpu] := rfl
          rw [hlibres, libres_una, hl]
          rfl
        have hquita' : libres k ([(programa c).origen (.recibeNull cpu fd)].filterMap
            quitaDe) = 0 := rfl
        omega
    | escuchaLibera cpu =>
      left
      have hmem := hat.dentro cpu rfl rfl
      obtain ⟨p, hp, -⟩ := hat.maneja cpu rfl
      have hl : (k.cpus cpu).cpuLibre = false := by
        cases hl : (k.cpus cpu).cpuLibre with
        | false => rfl
        | true => cases ((hI.escuchas.lista.libres cpu hmem).2.mp hl).symm.trans hp
      have hmisma : ((programa c).efecto k (.escuchaLibera cpu)).cpus cpu =
          { k.cpus cpu with pcbEnEjecucion := none, cpuLibre := true } := Function.update_self _ _ _
      have hotra : ∀ cpu', cpu' ≠ cpu → (((programa c).efecto k (.escuchaLibera cpu)).cpus
          cpu').cpuLibre = (k.cpus cpu').cpuLibre := fun cpu' hne =>
        congrArg Cpu.cpuLibre (Function.update_of_ne hne _ _)
      obtain ⟨hnl, hnr⟩ := no_quita cpu hI.escuchas rfl
      refine cuadra_de hE (libres_otras hnl hotra) (libres_otras hnr hotra) ?_
      have hcambia := libres_cambia hI.escuchas.lista.nodup hmem hotra
      rw [libres_una, libres_una, hl, hmisma] at hcambia
      simp only [Bool.false_eq_true, if_true, if_false] at hcambia
      have hsem : ((programa c).efecto k (.escuchaLibera cpu)).semCpuLibre =
          k.semCpuLibre + 1 := rfl
      have hlista : ((programa c).efecto k (.escuchaLibera cpu)).listaCpus = k.listaCpus := rfl
      have hcero : [(programa c).origen (.escuchaLibera cpu)].count .cortoElige = 0 := rfl
      have hcero' : ((programa c).destino k (.escuchaLibera cpu)).count .cortoElige = 0 := rfl
      have hquita : libres ((programa c).efecto k (.escuchaLibera cpu))
          (((programa c).destino k (.escuchaLibera cpu)).filterMap quitaDe) = 0 := rfl
      have hquita' : libres k ([(programa c).origen (.escuchaLibera cpu)].filterMap
          quitaDe) = 0 := rfl
      rw [hlista]
      omega
    | escuchaQuita cpu =>
      left
      have hmem := hat.dentro cpu rfl rfl
      refine cuadra_de hE rfl rfl ?_
      have hsale := libres_erase (k := k) hmem
      have hsem : ((programa c).efecto k (.escuchaQuita cpu)).semCpuLibre = k.semCpuLibre := rfl
      have hlista : libres ((programa c).efecto k (.escuchaQuita cpu))
          ((programa c).efecto k (.escuchaQuita cpu)).listaCpus =
            libres k (k.listaCpus.erase cpu) := rfl
      have hcero : [(programa c).origen (.escuchaQuita cpu)].count .cortoElige = 0 := rfl
      have hcero' : ((programa c).destino k (.escuchaQuita cpu)).count .cortoElige = 0 := rfl
      have hquita : libres ((programa c).efecto k (.escuchaQuita cpu))
          (((programa c).destino k (.escuchaQuita cpu)).filterMap quitaDe) = 0 := rfl
      have hquita' : libres k ([(programa c).origen (.escuchaQuita cpu)].filterMap quitaDe) =
          libres k [cpu] := rfl
      omega
    | escuchaCierra cpu =>
      left
      have hotra : ∀ cpu', cpu' ≠ cpu → (((programa c).efecto k (.escuchaCierra cpu)).cpus
          cpu').cpuLibre = (k.cpus cpu').cpuLibre := fun cpu' hne =>
        congrArg Cpu.cpuLibre (Function.update_of_ne hne _ _)
      obtain ⟨hnl, hnr⟩ := no_quita cpu hI.escuchas rfl
      refine cuadra_de hE (libres_otras hnl hotra) (libres_otras hnr hotra) ?_
      have hlista : libres ((programa c).efecto k (.escuchaCierra cpu))
          ((programa c).efecto k (.escuchaCierra cpu)).listaCpus = libres k k.listaCpus :=
        libres_otras (hat.fuera cpu rfl) hotra
      have hsem : ((programa c).efecto k (.escuchaCierra cpu)).semCpuLibre = k.semCpuLibre := rfl
      have hcero : [(programa c).origen (.escuchaCierra cpu)].count .cortoElige = 0 := rfl
      have hcero' : ((programa c).destino k (.escuchaCierra cpu)).count .cortoElige = 0 := rfl
      have hquita : libres ((programa c).efecto k (.escuchaCierra cpu))
          (((programa c).destino k (.escuchaCierra cpu)).filterMap quitaDe) = 0 := rfl
      have hquita' : libres k ([(programa c).origen (.escuchaCierra cpu)].filterMap
          quitaDe) = 0 := rfl
      omega
    | _ => cases ha

end Pasos

section Corridas

variable (c : ConfigKernel) (path : List Byte) (tamanio : ℤ) (absoluto : Option (List Byte))

theorem cuadra_corrida {s : Sistema Kernel Hilo}
    (h : Llega (programa c) Ordenada (arranque c path tamanio absoluto) s) :
    Asignados s ∧ (s.comun.indefinido = false → Cuadra s ∨ Colgado s) := by
  refine invariante_llega (I := fun s => Asignados s ∧ (s.comun.indefinido = false → Cuadra s ∨
    Colgado s))
    ?_ ⟨asignados_inicial c path tamanio absoluto, fun _ => Or.inl ?_⟩ h
  · rintro k l r a ⟨hI, hE⟩ hg hC
    refine ⟨asignados_paso hI hg (nombreNuevo_de_ordenada hC), fun hdef => ?_⟩
    rcases hE hg.1 with hE | hE
    · exact cuadra_paso hI hg hC hdef hE
    · exact Or.inr (colgado_paso hI.escuchas hg (nombreNuevo_de_ordenada hC) hE)
  · have hlista : (arranque c path tamanio absoluto).comun.listaCpus = [] :=
      congrArg VistaCpus.lista (vistaCpus_crearPcb c inicial path tamanio absoluto)
    have hsem : (arranque c path tamanio absoluto).comun.semCpuLibre = 0 := by
      rw [arranque, crearPcb]
      split <;> rfl
    rw [Cuadra, hlista, hsem]
    rfl

/-- In a run where each CPU has its own name and none that is idle leaves the planner without a
CPU for its ticket, the CPUs are well assigned whenever no thread handles one of them. -/
theorem asignacion_en_reposo {s : Sistema Kernel Hilo}
    (h : Llega (programa c) Ordenada (arranque c path tamanio absoluto) s) (hs : Reposo s) :
    Asignacion s := by
  obtain ⟨hI, hE⟩ := cuadra_corrida c path tamanio absoluto h
  have hnadie : ∀ cpu, cpu ∉ s.hilos.filterMap manejaDe := by
    intro cpu hm
    obtain ⟨h, hh, hm⟩ := List.mem_filterMap.mp hm
    cases (hs.hilos h hh).1.symm.trans hm
  have hdespide : ∀ h ∈ s.hilos, ∀ cpu, despideDe h ≠ some cpu := by
    intro h hh cpu hd
    cases (hs.hilos h hh).2.symm.trans hd
  constructor
  · rcases hE hs.definido with hE | ⟨h, hh, hcol⟩
    · have hvacia : s.hilos.filterMap quitaDe = [] := by
        refine List.filterMap_eq_nil_iff.mpr fun h hh => ?_
        cases h with
        | escuchaQuita cpu => exact absurd rfl (hdespide _ hh cpu)
        | _ => rfl
      rw [Cuadra, hvacia] at hE
      exact hE
    · cases h with
      | escuchaQuita cpu => exact absurd rfl (hdespide _ hh cpu)
      | escuchaRevisa cpu => exact absurd rfl (hdespide _ hh cpu)
      | escuchaFinalizaTomado cpu pcb => exact absurd rfl (hdespide _ hh cpu)
      | _ => cases hcol
  · intro cpu hmem hocupada
    cases hen : (s.comun.cpus cpu).pcbEnEjecucion with
    | none =>
      rw [(hI.escuchas.lista.libres cpu hmem).2.mpr hen] at hocupada
      cases hocupada
    | some p => exact ⟨p, rfl, hI.ejecucion.enCola cpu p ⟨hen, hnadie cpu⟩⟩
  · intro p hp
    obtain ⟨cpu, hej, hlista⟩ := hI.ejecucion.deCola p hp
    have hmem : cpu ∈ s.comun.listaCpus :=
      hlista.resolve_right fun h => hdespide _ h cpu rfl
    refine ⟨cpu, ⟨hmem, hej.1⟩, fun cpu' hcpu' => ?_⟩
    exact hI.ejecucion.unica cpu' cpu p ⟨hcpu'.2, hnadie cpu'⟩ hej

instance (s : Sistema Kernel Hilo) : Decidable (Reposo s) :=
  decidable_of_iff ((∀ h ∈ s.hilos, manejaDe h = none ∧ despideDe h = none) ∧
    s.comun.indefinido = false) ⟨fun h => ⟨h.1, h.2⟩, fun h => ⟨h.1, h.2⟩⟩

theorem asignacion_en_reposo_ejemplo : ∃ s, tras configuracion hastaEjecutar = some s ∧ Reposo s ∧
    s.comun.colas .running = [0] ∧ Asignacion s := by
  have hobs : (tras configuracion hastaEjecutar).map (fun s =>
      (decide (Reposo s), s.comun.colas .running)) = some (true, [0]) := by decide +kernel
  have hC : Cumple (paso (programa configuracion)) Ordenada
      (agenda (programa configuracion) hastaEjecutar (arranque configuracion [65] 10 none))
      (arranque configuracion [65] 10 none) := by decide +kernel
  obtain ⟨s, hs, h⟩ := Option.map_eq_some_iff.mp hobs
  simp only [Prod.mk.injEq, decide_eq_true_eq] at h
  exact ⟨s, hs, h.1, h.2, asignacion_en_reposo configuracion [65] 10 none ⟨_, hC, hs⟩ h.1⟩

/-- The planner takes the ticket of the only CPU, which disconnects. -/
def hastaPerderBoleto : List Accion :=
  hastaEjecutar.dropLast.dropLast ++ [.moduloDesconecta ⟨0, 1, 1, 1, none, false, []⟩,
    .recibeNull 0 (some 0), .escuchaQuita 0, .escuchaRevisa 0, .escuchaCierra 0]

theorem boleto_sin_cpu : ∃ s, tras configuracion hastaPerderBoleto = some s ∧ Reposo s ∧
    ¬ Asignacion s := by
  have hobs : (tras configuracion hastaPerderBoleto).map (fun s =>
      (decide (Reposo s), s.comun.semCpuLibre + s.hilos.count .cortoElige, s.comun.listaCpus)) =
      some (true, 1, []) := by decide +kernel
  obtain ⟨s, hs, h⟩ := Option.map_eq_some_iff.mp hobs
  simp only [Prod.mk.injEq, decide_eq_true_eq] at h
  refine ⟨s, hs, h.1, fun hley => ?_⟩
  have htickets := hley.tickets
  rw [h.2.1, h.2.2] at htickets
  cases htickets

end Corridas

end KernelAsignacion

import Tpssoo.KernelPcbs

/-!
# Where a PCB may come from

An action finds the processes it works on in a queue other than `cola_new`, in
`pcb_en_ejecucion` or in the hands of its thread; only the long-term planner takes one out of
`cola_new`. A process in `cola_new` is then nowhere else.
-/
namespace KernelPresentes

open EnterosC Protocolo KernelEstado KernelFunciones KernelHilos KernelVistas KernelPcbs
open Entrelazado

/-- The PCBs that a thread has in its hands, a candidate from `cola_new` apart. -/
def nombra : Hilo → List ℤ
  | .largoPide pcb susp | .largoAguarda pcb susp | .largoResuelve pcb susp _ =>
    if susp then [pcb] else []
  | .gestorPide pcb | .gestorAguarda pcb | .gestorLibera pcb _ => [pcb]
  | .dumpPide pcb | .dumpAguarda pcb | .dumpResuelve pcb _ | .dumpFinaliza pcb
  | .dumpFinalizaTomado pcb => [pcb]
  | .escuchaAgregaExit _ pcb | .escuchaCambiaExit _ pcb | .escuchaBloquea _ pcb _ _
  | .escuchaEncola _ pcb _ _ | .escuchaSinDispositivo _ pcb | .escuchaBloqueaDump _ pcb
  | .escuchaAgregaReady _ pcb | .escuchaCambiaReady _ pcb | .escuchaDesaloja _ pcb
  | .escuchaFinaliza _ pcb | .escuchaFinalizaAgrega _ pcb | .escuchaFinalizaTomado _ pcb => [pcb]
  | .ioFinaliza pcbs => pcbs
  | .ioFinalizaAgrega pcb resto => pcb :: resto
  | _ => []

/-- Everything in the queues after NEW satisfies `S`. -/
def Dentro (S : ℤ → Prop) (k : Kernel) : Prop := ∀ e, e ≠ .new → ∀ p ∈ k.colas e, S p

def EnCpu (k : Kernel) (p : ℤ) : Prop := ∃ cpu, (k.cpus cpu).pcbEnEjecucion = some p

/-- All the PCBs that the kernel has outside `cola_new` satisfy `S`. -/
structure Presentes (S : ℤ → Prop) (s : Sistema Kernel Hilo) : Prop where
  colas : Dentro S s.comun
  cpus : ∀ p, EnCpu s.comun p → S p
  hilos : ∀ h ∈ s.hilos, ∀ p ∈ nombra h, S p

section Colas

variable {S : ℤ → Prop} {k k' : Kernel} {p : ℤ}

theorem Dentro.congr (h : Dentro S k) (hcolas : k'.colas = k.colas) : Dentro S k' := by
  rw [Dentro, hcolas]
  exact h

theorem Dentro.agregar (h : Dentro S k) (e : Estado) (hp : S p) : Dentro S (k.agregar e p) := by
  intro e' he' q hq
  rw [Kernel.colas_agregar] at hq
  split at hq
  · rcases List.mem_append.mp hq with hq | hq
    · exact h e' he' q hq
    · exact List.mem_singleton.mp hq ▸ hp
  · exact h e' he' q hq

theorem Dentro.quitar (h : Dentro S k) (e : Estado) (p : ℤ) : Dentro S (k.quitar e p) := by
  intro e' he' q hq
  rw [Kernel.colas_quitar] at hq
  split at hq
  · exact h e' he' q (List.mem_of_mem_erase hq)
  · exact h e' he' q hq

/-- A queue is left with some of its PCBs. -/
theorem Dentro.update (h : Dentro S k) {e : Estado} {xs : List ℤ} (hxs : ∀ q ∈ xs, q ∈ k.colas e)
    (hcolas : k'.colas = Function.update k.colas e xs) : Dentro S k' := by
  intro e' he' q hq
  rw [hcolas] at hq
  by_cases heq : e' = e
  · subst heq
    rw [Function.update_self] at hq
    exact h e' he' q (hxs q hq)
  · rw [Function.update_of_ne heq] at hq
    exact h e' he' q hq

theorem buscarEnCola_mem {pcbs : ℤ → Option Pcb} {pid q : ℤ} {xs : List ℤ}
    (h : buscarEnCola pcbs pid xs = some (some q)) : q ∈ xs := by
  induction xs with
  | nil => cases h
  | cons x xs ih =>
    rw [buscarEnCola] at h
    split at h
    · cases h
    split at h
    · cases h
      exact List.mem_cons_self
    · exact List.mem_cons_of_mem _ (ih h)

theorem Dentro.buscado (h : Dentro S k) {pid : ℤ} (hp : buscarPcbPorPid k pid = some (some p)) :
    S p := by
  have hmem := buscarEnCola_mem hp
  simp only [List.mem_append] at hmem
  rcases hmem with hmem | hmem | hmem | hmem | hmem
  · exact h _ (by decide) p hmem
  · exact h _ (by decide) p hmem
  · exact h _ (by decide) p hmem
  · exact h _ (by decide) p hmem
  · exact h _ (by decide) p hmem

end Colas

section Funciones

variable {S : ℤ → Prop} {c : ConfigKernel} {k : Kernel} {p : ℤ}

theorem colas_desalojar (pcb : ℤ) : (desalojarSiEsNecesarioSrt c k pcb).colas = k.colas := by
  obtain ⟨e, i, h, -⟩ := desalojar_eq c k pcb
  rw [h]

theorem Dentro.desbloquear (h : Dentro S k) (hp : S p) : Dentro S (desbloquear k p) :=
  ((h.quitar .blocked p).agregar .ready hp).congr rfl

theorem Dentro.desbloquearSuspendido (h : Dentro S k) (hp : S p) :
    Dentro S (desbloquearSuspendido k p) :=
  ((h.quitar .suspendedBlocked p).agregar .suspendedReady hp).congr rfl

theorem Dentro.quitarBloqueado (h : Dentro S k) (p : ℤ) : Dentro S (quitarBloqueado k p) := by
  rw [KernelFunciones.quitarBloqueado]
  repeat' split
  · exact (h.quitar _ p).quitar _ p
  · exact h.quitar _ p
  · exact h.quitar _ p
  · exact h

theorem Dentro.terminarDump (h : Dentro S k) (pid : ℤ) : Dentro S (terminarDump k pid) := by
  rw [KernelFunciones.terminarDump]
  split
  · exact h.congr rfl
  · exact h
  next q hq =>
  split
  · exact h.desbloquear (h.buscado hq)
  split
  · exact h.desbloquearSuspendido (h.buscado hq)
  · exact h

theorem Dentro.resolverDump (h : Dentro S k) (pcb : ℤ) (ok : Bool) :
    Dentro S (resolverDump k pcb ok) := by
  rw [KernelHilos.resolverDump]
  split
  · exact h.congr rfl
  split
  · exact h.terminarDump _
  split
  · exact h.congr rfl
  · exact h
  · next q _ => exact (h.quitarBloqueado q).congr rfl

theorem Dentro.despertarDeIo (h : Dentro S k) (pid : ℤ) : Dentro S (despertarDeIo c k pid) := by
  rw [KernelFunciones.despertarDeIo]
  split
  · exact h.congr rfl
  · exact h
  next q hq =>
  split
  · exact (h.desbloquear (h.buscado hq)).congr (colas_desalojar q)
  split
  · exact h.desbloquearSuspendido (h.buscado hq)
  · exact h

theorem Dentro.vaciarEspera (h : Dentro S k) (xs : List Solicitud) :
    Dentro S (vaciarEspera xs k).1 ∧ ∀ p ∈ (vaciarEspera xs k).2, S p := by
  induction xs generalizing k with
  | nil => exact ⟨h, fun p hp => by cases hp⟩
  | cons sol xs ih =>
    rw [KernelFunciones.vaciarEspera]
    split
    · exact ⟨h.congr rfl, fun p hp => by cases hp⟩
    · exact ih h
    · next q hq =>
        obtain ⟨hd, hmem⟩ := ih (h.quitarBloqueado q)
        refine ⟨hd, fun p hp => ?_⟩
        rcases List.mem_cons.mp hp with rfl | hp
        · exact h.buscado hq
        · exact hmem p hp

theorem Dentro.manejarDesconexionIo (h : Dentro S k) (nombre : List Byte) (fd : ℕ) :
    Dentro S (manejarDesconexionIo k nombre fd).1 ∧
      ∀ p ∈ (manejarDesconexionIo k nombre fd).2, S p := by
  rw [KernelFunciones.manejarDesconexionIo]
  split
  · exact ⟨h, fun p hp => by cases hp⟩
  split
  · exact ⟨h, fun p hp => by cases hp⟩
  split
  · exact ⟨h.congr rfl, fun p hp => by cases hp⟩
  dsimp only
  split
  · obtain ⟨hd, hmem⟩ := h.vaciarEspera (k := k) _
    exact ⟨hd.congr rfl, hmem⟩
  · exact ⟨h.congr rfl, fun p hp => by cases hp⟩

theorem ordenReady_perm : (ordenReady c k).Perm (k.colas .ready) := by
  rw [ordenReady]
  split
  · exact listSort_perm _
  · exact listSort_perm _
  · exact .refl _

theorem ordenLargoPlazo_perm (e : Estado) : (ordenLargoPlazo c k e).Perm (k.colas e) := by
  rw [ordenLargoPlazo]
  split
  · exact .refl _
  · exact listSort_perm _

theorem Dentro.planificar (h : Dentro S k) : Dentro S (planificarCortoPlazo c k) := by
  have hmem : ∀ {pcb resto}, ordenReady c k = pcb :: resto →
      ∀ q ∈ pcb :: resto, q ∈ k.colas .ready :=
    fun horden q hq => ordenReady_perm.subset (horden ▸ hq)
  rcases planificar_casos c k with h' | h' | ⟨pcb, resto, horden, -, h'⟩ |
    ⟨pcb, resto, i, cpu, horden, -, h'⟩ <;> rw [h']
  · exact h.congr rfl
  · exact h.congr rfl
  · exact h.update (hmem horden) rfl
  · have hresto : Dentro S { k with colas := Function.update k.colas .ready resto } :=
      h.update (fun q hq => hmem horden q (List.mem_cons_of_mem _ hq)) rfl
    exact (hresto.agregar .running (h _ (by decide) pcb (hmem horden pcb List.mem_cons_self))).congr
      rfl

theorem Dentro.elegir (h : Dentro S k) : Dentro S (elegirCandidato c k) := by
  rw [elegirCandidato]
  split
  · exact h.congr rfl
  · exact h.update (fun q hq => (ordenLargoPlazo_perm _).subset hq) rfl

theorem Dentro.admitir (h : Dentro S k) (susp : Bool) (hp : S p) :
    Dentro S (admitir c k p susp) := by
  obtain ⟨e, i, heq, -⟩ := admitir_eq c k p susp
  rw [heq]
  have htail : Dentro S { k with
      colas := Function.update k.colas (colaDe susp) (k.colas (colaDe susp)).tail } :=
    h.update (fun q hq => List.mem_of_mem_tail hq) rfl
  refine (htail.agregar .ready hp).congr ?_
  cases susp <;> rfl

theorem Dentro.crear (h : Dentro S k) (path : List Byte) (tamanio : ℤ)
    (absoluto : Option (List Byte)) :
    Dentro S (crearPcb c k path tamanio absoluto) := by
  have hcolas : ∀ e, e ≠ .new → (crearPcb c k path tamanio absoluto).colas e = k.colas e := by
    intro e he
    rw [crearPcb]
    split <;> exact Function.update_of_ne he _ _
  intro e he q hq
  rw [hcolas e he] at hq
  exact h e he q hq

theorem Dentro.recibirRespuesta (h : Dentro S k) (cpu fd : ℕ) (pid pc : ℤ) (motivo : Motivo) :
    Dentro S (recibirRespuesta k c cpu fd pid pc motivo) := by
  rw [KernelHilos.recibirRespuesta]
  split
  · exact h.congr rfl
  split
  · exact h.congr rfl
  split
  · exact (h.quitar .running _).congr rfl
  · exact (h.quitar .running _).congr rfl

end Funciones

section Acciones

variable {S : ℤ → Prop} {c : ConfigKernel} {k : Kernel} {l r : List Hilo} {a : Accion}

theorem Presentes.origen (h : Presentes S ⟨k, l ++ (programa c).origen a :: r⟩) :
    ∀ p ∈ nombra ((programa c).origen a), S p :=
  h.hilos _ (List.mem_append_right _ List.mem_cons_self)

theorem dentro_efecto (h : Presentes S ⟨k, l ++ (programa c).origen a :: r⟩)
    (hadm : ∀ p, a = .largoResuelve p false true → S p) : Dentro S ((programa c).efecto k a) := by
  have hk : Dentro S k := h.colas
  have hor := h.origen
  cases a with
  | largoElige => exact hk.elegir
  | largoEnvia pcb susp | gestorEnvia pcb | dumpEnvia pcb =>
    dsimp only [programa, transicion]
    split
    · exact hk.congr rfl
    · exact hk
  | largoResuelve pcb susp ok =>
    cases ok with
    | false => exact hk
    | true =>
      refine hk.admitir susp ?_
      cases susp with
      | false => exact hadm pcb rfl
      | true => exact hor pcb List.mem_cons_self
  | cortoPlanifica => exact hk.planificar
  | gestorToma =>
    dsimp only [programa, transicion]
    split
    · exact hk
    · next pcb resto hexit =>
        exact Dentro.congr (hk.update (fun q hq => hexit ▸ List.mem_cons_of_mem _ hq) rfl) rfl
  | gestorLibera pcb ok =>
    dsimp only [programa, transicion]
    split
    · exact hk.congr rfl
    · split <;> exact hk.congr rfl
  | suspensionVence pid desde bloqueo =>
    dsimp only [programa, transicion]
    split
    · exact hk.congr rfl
    · exact hk
    next q hq =>
    split
    · exact (((hk.congr rfl).quitar .blocked q).agregar .suspendedBlocked (hk.buscado hq)).congr rfl
    · exact hk
  | suspensionResuelve ok =>
    dsimp only [programa, transicion]
    split
    · exact hk.congr rfl
    · exact hk
  | dumpResuelve pcb ok => exact hk.resolverDump pcb ok
  | dumpFinaliza pcb | dumpFinalizaTomado pcb | escuchaAgregaExit cpu pcb
  | escuchaFinalizaAgrega cpu pcb | escuchaFinalizaTomado cpu pcb | ioFinalizaAgrega pcb resto =>
    exact (hk.agregar .exit (hor pcb List.mem_cons_self)).congr rfl
  | cpuRegistra fd nombre =>
    dsimp only [programa, transicion, registrarCpu]
    split <;> exact hk.congr rfl
  | interruptRegistra fd nombre =>
    dsimp only [programa, transicion]
    split
    · exact hk.congr rfl
    · exact hk
  | recibeInitProc cpu fd path tamanio absoluto =>
    have hcrear : Dentro S (crearPcb c (recibir k fd) path tamanio absoluto) :=
      (hk.congr rfl : Dentro S (recibir k fd)).crear path tamanio absoluto
    dsimp only [programa, transicion]
    split
    · exact hcrear.congr rfl
    · exact hcrear
  | recibeRespuesta cpu fd pid pc motivo => exact hk.recibirRespuesta cpu fd pid pc motivo
  | recibeOtro cpu fd =>
    dsimp only [programa, transicion]
    split
    · exact hk.congr rfl
    · exact (hk.quitar .running _).congr rfl
  | escuchaBloquea cpu pcb dispositivo duracion =>
    dsimp only [programa, transicion]
    split
    · exact hk.quitar .running pcb
    · exact ((hk.quitar .running pcb).agregar .blocked (hor pcb List.mem_cons_self)).congr rfl
  | escuchaEncola cpu pcb grupo duracion =>
    dsimp only [programa, transicion, encolarSolicitud]
    split <;> exact hk.congr rfl
  | escuchaSinDispositivo cpu pcb => exact hk.quitar .running pcb
  | escuchaBloqueaDump cpu pcb =>
    exact ((hk.quitar .running pcb).agregar .blocked (hor pcb List.mem_cons_self)).congr rfl
  | escuchaAgregaReady cpu pcb => exact hk.agregar .ready (hor pcb List.mem_cons_self)
  | escuchaDesaloja cpu pcb => exact hk.congr (colas_desalojar pcb)
  | escuchaRevisa cpu =>
    dsimp only [programa, transicion]
    split
    · exact hk
    · exact (hk.quitar .running _).congr rfl
  | ioRegistra fd nombre =>
    dsimp only [programa, transicion, registrarInstancia]
    split <;> exact hk.congr rfl
  | ioDespacha grupo =>
    dsimp only [programa, transicion, despacharGrupo]
    split <;> exact hk.congr rfl
  | ioTermina fd nombre terminadas pid =>
    dsimp only [programa, transicion, manejarFinIo]
    split
    · exact hk
    · exact (hk.despertarDeIo (c := c) pid).congr rfl
  | ioDesconecta fd nombre terminadas => exact (hk.manejarDesconexionIo nombre fd).1
  | _ => exact hk.congr rfl

/-- A process in execution was there, or has just left `cola_ready`. -/
theorem enCpu_efecto (h : Presentes S ⟨k, l ++ (programa c).origen a :: r⟩) {p : ℤ}
    (hp : EnCpu ((programa c).efecto k a) p) : S p := by
  have hmisma : ((programa c).efecto k a).cpus = k.cpus → S p := fun heq => by
    rw [EnCpu, heq] at hp
    exact h.cpus p hp
  have hupdate : ∀ cpu (x : Cpu), ((programa c).efecto k a).cpus = Function.update k.cpus cpu x →
      (∀ q, x.pcbEnEjecucion = some q → S q) → S p := by
    intro cpu x heq hx
    obtain ⟨d, hd⟩ := hp
    rw [heq] at hd
    by_cases hcpu : d = cpu
    · subst hcpu
      rw [Function.update_self] at hd
      exact hx p hd
    · rw [Function.update_of_ne hcpu] at hd
      exact h.cpus p ⟨d, hd⟩
  cases hto : tocaCpus a with
  | false =>
    obtain ⟨cpu, hcpu⟩ := hp
    have hvista := congrFun (congrArg VistaCpus.enEjecucion (vistaCpus_efecto c k hto)) cpu
    exact h.cpus p ⟨cpu, hvista.symm.trans hcpu⟩
  | true =>
    cases a with
    | cortoPlanifica =>
      dsimp only [programa, transicion] at hmisma hupdate
      rcases planificar_casos c k with h' | h' | ⟨pcb, resto, -, -, h'⟩ |
        ⟨pcb, resto, i, cpu, horden, -, h'⟩ <;> rw [h'] at hmisma hupdate
      · exact hmisma rfl
      · exact hmisma rfl
      · exact hmisma rfl
      · refine hupdate cpu _ rfl fun q hq => ?_
        cases hq
        exact h.colas .ready (by decide) pcb (ordenReady_perm.subset (horden ▸ List.mem_cons_self))
    | cpuRegistra fd nombre =>
      obtain ⟨cpu, hcpu⟩ := hp
      by_cases heq : cpu = cpuDe k nombre
      · subst heq
        dsimp only [programa, transicion, registrarCpu, Kernel.postCpuLibre] at hcpu
        rw [Kernel.conCpu_misma] at hcpu
        cases hcpu
      · dsimp only [programa, transicion, registrarCpu, Kernel.postCpuLibre] at hcpu
        rw [Kernel.conCpu_otra _ _ heq] at hcpu
        split at hcpu
        · exact h.cpus p ⟨cpu, hcpu⟩
        · by_cases hnueva : cpu = k.totalCpus
          · subst hnueva
            dsimp only at hcpu
            rw [Function.update_self] at hcpu
            cases hcpu
          · dsimp only at hcpu
            rw [Function.update_of_ne hnueva] at hcpu
            exact h.cpus p ⟨cpu, hcpu⟩
    | recibeInitProc cpu fd path tamanio absoluto =>
      have hcrear := (enviados_crearPcb c (recibir k fd) path tamanio absoluto).2
      refine hmisma ?_
      dsimp only [programa, transicion]
      split
      · rw [Kernel.enviar, hcrear]
        rfl
      · rw [hcrear]
        rfl
    | recibeRespuesta cpu fd q pc motivo =>
      refine hmisma ?_
      dsimp only [programa, transicion, recibirRespuesta]
      repeat' split
      all_goals rfl
    | recibeOtro cpu fd =>
      refine hmisma ?_
      dsimp only [programa, transicion]
      split <;> rfl
    | escuchaLibera cpu | escuchaFinalizaTomado cpu pcb =>
      exact hupdate cpu _ rfl fun q hq => by cases hq
    | escuchaCierra cpu => exact hupdate cpu _ rfl fun q hq => h.cpus q ⟨cpu, hq⟩
    | _ => first | exact hmisma rfl | cases hto

theorem nombra_destino (h : Presentes S ⟨k, l ++ (programa c).origen a :: r⟩) :
    ∀ d ∈ (programa c).destino k a, ∀ p ∈ nombra d, S p := by
  have hk : Dentro S k := h.colas
  have hor := h.origen
  have hcpu : ∀ {cpu pcb}, (k.cpus cpu).pcbEnEjecucion = some pcb → S pcb :=
      fun hc => h.cpus _ ⟨_, hc⟩
  cases a with
  | largoElige =>
    dsimp only [programa, transicion]
    split
    · simp [nombra]
    next pcb hhead =>
    intro d hd p hp
    rw [List.mem_singleton.mp hd, nombra] at hp
    split at hp
    · next hsusp =>
        rw [List.mem_singleton.mp hp]
        have hmem := (ordenLargoPlazo_perm _).subset (List.mem_of_mem_head? hhead)
        rw [of_decide_eq_true hsusp] at hmem
        exact hk _ (by decide) pcb hmem
    · cases hp
  | largoFallaConexion pcb susp | largoEnvia pcb susp | largoRecibe pcb susp ok =>
    intro d hd p hp
    rw [List.mem_singleton.mp hd] at hp
    exact hor p hp
  | largoResuelve pcb susp ok =>
    dsimp only [programa, transicion]
    split <;> simp [nombra]
  | gestorToma =>
    dsimp only [programa, transicion]
    split
    · simp [nombra]
    · next pcb resto hexit =>
        intro d hd p hp
        rw [List.mem_singleton.mp hd] at hp
        rw [List.mem_singleton.mp hp]
        exact hk .exit (by decide) pcb (hexit ▸ List.mem_cons_self)
  | suspensionVence pid desde bloqueo =>
    dsimp only [programa, transicion]
    split
    · split <;> simp [nombra]
    · simp
  | dumpResuelve pcb ok =>
    dsimp only [programa, transicion, trasDump]
    split
    · next q hq =>
        split
        · simp
        · intro d hd p hp
          rw [List.mem_singleton.mp hd] at hp
          rw [List.mem_singleton.mp hp]
          obtain ⟨x, -, hx⟩ := Option.bind_eq_some_iff.mp hq
          exact hk.buscado hx
    · simp
  | recibeRespuesta cpu fd pid pc motivo =>
    dsimp only [programa, transicion, trasRespuesta]
    split
    · simp
    next pcb hpcb =>
    split
    · simp
    have hS : S pcb := hcpu hpcb
    split
    · simpa [nombra] using hS
    · cases motivo <;> simpa [nombra, segunMotivo] using hS
  | recibeOtro cpu fd =>
    dsimp only [programa, transicion]
    split
    · simp [nombra]
    · next pcb hpcb => simpa [nombra] using hcpu hpcb
  | escuchaRevisa cpu =>
    dsimp only [programa, transicion]
    split
    · simp [nombra]
    · next pcb hpcb => simpa [nombra] using hcpu hpcb
  | escuchaBloquea cpu pcb dispositivo duracion =>
    have hS : S pcb := hor pcb List.mem_cons_self
    dsimp only [programa, transicion]
    split
    · simpa [nombra] using hS
    · simpa [nombra] using hS
  | ioDesconecta fd nombre terminadas =>
    intro d hd p hp
    rw [List.mem_singleton.mp hd] at hp
    exact (hk.manejarDesconexionIo nombre fd).2 p hp
  | gestorFallaConexion pcb | gestorEnvia pcb | gestorRecibe pcb ok | dumpFallaConexion pcb
  | dumpEnvia pcb | dumpRecibe pcb ok | escuchaAgregaExit cpu pcb | escuchaSinDispositivo cpu pcb
  | escuchaAgregaReady cpu pcb | escuchaCambiaReady cpu pcb | escuchaFinaliza cpu pcb
  | ioFinaliza pcb resto =>
    intro d hd p hp
    rw [List.mem_singleton.mp hd] at hp
    exact hor p hp
  | escuchaBloqueaDump cpu pcb =>
    have hS : S pcb := hor pcb List.mem_cons_self
    dsimp only [programa, transicion]
    simpa [nombra] using hS
  | ioFinalizaAgrega pcb resto =>
    intro d hd p hp
    rw [List.mem_singleton.mp hd] at hp
    exact hor p (List.mem_cons_of_mem _ hp)
  | _ =>
    dsimp only [programa, transicion]
    simp [nombra]

/-- The PCBs outside `cola_new` come from outside it, but for those that the long-term
planner admits. -/
theorem presentes_paso (h : Presentes S ⟨k, l ++ (programa c).origen a :: r⟩)
    (hadm : ∀ p, a = .largoResuelve p false true → S p) :
    Presentes S ⟨(programa c).efecto k a, l ++ ((programa c).destino k a ++ r)⟩ := by
  refine ⟨dentro_efecto h hadm, fun p => enCpu_efecto h, fun d hd => ?_⟩
  rcases List.mem_append.mp hd with hd | hd
  · exact h.hilos d (List.mem_append_left _ hd)
  rcases List.mem_append.mp hd with hd | hd
  · exact nombra_destino h d hd
  · exact h.hilos d (List.mem_append_right _ (List.mem_cons_of_mem _ hd))

end Acciones

end KernelPresentes

import Tpssoo.KernelAdmision
import Tpssoo.KernelCpus

/-!
# Each process in execution has its CPU

A process that is not blocked is once in `cola_new`, `cola_ready`, `cola_suspended_ready`,
`cola_exec` or the hands of the thread that handles its CPU. So the processes in `cola_exec`
are those of the CPUs whose response no thread is handling, one for each.
-/
namespace KernelEjecucion

open EnterosC Protocolo KernelEstado KernelFunciones KernelHilos KernelVistas KernelPcbs
open KernelPresentes KernelLargoPlazo KernelCpus Entrelazado

/-- A PCB that a thread has taken out of `cola_exec` and has not finalised. -/
def enMano : Hilo → Option ℤ
  | .escuchaBloquea _ pcb _ _ | .escuchaSinDispositivo _ pcb | .escuchaBloqueaDump _ pcb
  | .escuchaAgregaReady _ pcb => some pcb
  | _ => none

/-- A process waits, as far as its state says. -/
def espera (k : Kernel) (p : ℤ) : ℕ :=
  if estadoDe k p = some .blocked ∨ estadoDe k p = some .suspendedBlocked then 1 else 0

/-- How many times the kernel has a process among those that do not wait, or as waiting. -/
def peso (k : Kernel) (p : ℤ) : ℕ :=
  (k.colas .new).count p + (k.colas .ready).count p + (k.colas .suspendedReady).count p +
    (k.colas .running).count p + espera k p

section Pesos

variable {k k' : Kernel} {e : Estado} {p q : ℤ}

theorem count_agregar (e' : Estado) : ((k.agregar e q).colas e').count p =
    (k.colas e').count p + if e' = e ∧ q = p then 1 else 0 := by
  rw [Kernel.colas_agregar]
  by_cases he : e' = e
  · by_cases hq : q = p <;> simp [he, hq]
  · simp [he]

theorem count_quitar (e' : Estado) : ((k.quitar e q).colas e').count p =
    (k.colas e').count p - if e' = e ∧ q = p then 1 else 0 := by
  rw [Kernel.colas_quitar]
  by_cases he : e' = e
  · by_cases hq : q = p <;> simp [he, hq, List.count_erase]
  · simp [he]

theorem espera_le : espera k p ≤ 1 := by
  rw [espera]
  split <;> decide

theorem estadoDe_cambiarEstado (e : Estado) : estadoDe (k.cambiarEstado q e) p =
    if p = q then (estadoDe k p).map fun _ => e else estadoDe k p := by
  by_cases h : p = q
  · subst h
    rw [if_pos rfl, estadoDe, estadoDe, Kernel.cambiarEstado, Kernel.conPcb]
    dsimp only
    rw [Function.update_self, Option.map_map, Option.map_map]
    congr 1
    funext x
    exact Pcb.estado_cambiarEstado k.reloj e x
  · rw [if_neg h, estadoDe, estadoDe, Kernel.cambiarEstado, Kernel.conPcb]
    dsimp only
    rw [Function.update_of_ne h]

/-- A process that changes to a state in which it does not wait. -/
theorem espera_cambiarEstado (he : e ≠ .blocked) (he' : e ≠ .suspendedBlocked) :
    espera (k.cambiarEstado q e) p = if p = q then 0 else espera k p := by
  rw [espera, estadoDe_cambiarEstado]
  by_cases h : p = q
  · subst h
    rw [if_pos rfl, if_pos rfl]
    cases estadoDe k p <;> simp [he, he']
  · rw [if_neg h, if_neg h]
    rfl

theorem espera_otro (h : p ≠ q) : espera (k.cambiarEstado q e) p = espera k p := by
  rw [espera, estadoDe_cambiarEstado, if_neg h]
  rfl

theorem espera_cambiar_le (he : e ≠ .blocked) (he' : e ≠ .suspendedBlocked) :
    espera (k.cambiarEstado q e) p ≤ espera k p := by
  rw [espera_cambiarEstado he he']
  split
  · exact Nat.zero_le _
  · exact le_rfl

theorem peso_congr (hcolas : k'.colas = k.colas) (hpcbs : k'.pcbs = k.pcbs) :
    peso k' p = peso k p := by
  rw [peso, peso, espera, espera, estadoDe, estadoDe, hcolas, hpcbs]

/-- Only the state of a process changes. -/
theorem peso_cambiar_le (he : e ≠ .blocked) (he' : e ≠ .suspendedBlocked) :
    peso (k.cambiarEstado q e) p ≤ peso k p :=
  Nat.add_le_add_left (espera_cambiar_le he he') _

theorem peso_quitar_le (e : Estado) : peso (k.quitar e q) p ≤ peso k p := by
  have hespera : espera (k.quitar e q) p = espera k p := rfl
  simp only [peso, count_quitar, hespera]
  omega

/-- A process leaves `cola_exec`. -/
theorem peso_sacar (hq : q ∈ k.colas .running) :
    peso (k.quitar .running q) p + (if q = p then 1 else 0) = peso k p := by
  have hespera : espera (k.quitar .running q) p = espera k p := rfl
  have huno : 0 < (k.colas .running).count q := List.count_pos_iff.mpr hq
  simp only [peso, count_quitar, hespera]
  by_cases h : q = p
  · subst h
    simp
    omega
  · simp [h]

/-- A process that waits comes to a queue of those that do not. -/
theorem peso_despertar {e' : Estado} {t : Kernel} (hq : espera k q = 1)
    (he : e = .ready ∨ e = .suspendedReady)
    (hcolas : t.colas = ((k.quitar e' q).agregar e q).colas)
    (hespera : espera t p = if p = q then 0 else espera k p) : peso t p ≤ peso k p := by
  rw [peso, peso, hcolas, hespera]
  simp only [count_agregar, count_quitar]
  by_cases h : p = q
  · subst h
    rw [hq]
    rcases he with rfl | rfl <;> simp <;> omega
  · have h' : ¬ q = p := fun heq => h heq.symm
    simp [h, h']

theorem espera_de_estado (h : estadoDe k q = some .blocked ∨
    estadoDe k q = some .suspendedBlocked) :
    espera k q = 1 := if_pos h

theorem peso_desbloquear (h : estadoDe k q = some .blocked) : peso (desbloquear k q) p ≤ peso k p :=
  peso_despertar (espera_de_estado (Or.inl h)) (Or.inl rfl) rfl
    (espera_cambiarEstado (k := (k.quitar .blocked q).agregar .ready q) (by decide) (by decide))

theorem peso_desbloquearSuspendido (h : estadoDe k q = some .suspendedBlocked) :
    peso (desbloquearSuspendido k q) p ≤ peso k p :=
  peso_despertar (espera_de_estado (Or.inr h)) (Or.inr rfl) rfl
    (espera_cambiarEstado (k := (k.quitar .suspendedBlocked q).agregar .suspendedReady q)
      (by decide) (by decide))

theorem peso_suspender (h : estadoDe k q = some .blocked) : peso (suspender k q) p ≤ peso k p := by
  have hespera : espera (suspender k q) p ≤ espera k p := by
    by_cases hp : p = q
    · subst hp
      rw [espera_de_estado (Or.inl h)]
      exact espera_le
    · exact (espera_otro hp).le
  have hcolas : ∀ e, e ≠ .blocked → e ≠ .suspendedBlocked → (suspender k q).colas e = k.colas e :=
    fun e he he' => (Function.update_of_ne he' _ _).trans (Function.update_of_ne he _ _)
  rw [peso, peso, hcolas .new (by decide) (by decide), hcolas .ready (by decide) (by decide),
    hcolas .suspendedReady (by decide) (by decide), hcolas .running (by decide) (by decide)]
  exact Nat.add_le_add_left hespera _

theorem peso_desalojar (c : ConfigKernel) (pcb : ℤ) :
    peso (desalojarSiEsNecesarioSrt c k pcb) p = peso k p := by
  obtain ⟨e, i, h, -⟩ := desalojar_eq c k pcb
  rw [h]
  rfl

theorem peso_bloqueado (q : ℤ) : peso (quitarBloqueado k q) p ≤ peso k p := by
  rw [quitarBloqueado]
  repeat' split
  · exact (peso_quitar_le _).trans (peso_quitar_le _)
  · exact peso_quitar_le _
  · exact peso_quitar_le _
  · exact le_rfl

theorem peso_terminarDump (pid : ℤ) : peso (terminarDump k pid) p ≤ peso k p := by
  rw [terminarDump]
  split
  · exact le_rfl
  · exact le_rfl
  split
  · next h => exact peso_desbloquear h
  split
  · next h => exact peso_desbloquearSuspendido h
  · exact le_rfl

theorem peso_resolverDump (pcb : ℤ) (ok : Bool) : peso (resolverDump k pcb ok) p ≤ peso k p := by
  rw [resolverDump]
  split
  · exact le_rfl
  split
  · exact peso_terminarDump _
  split
  · exact le_rfl
  · exact le_rfl
  · next q _ =>
      have hestado : peso ((quitarBloqueado k q).cambiarEstado q .exit) p ≤
          peso (quitarBloqueado k q) p :=
        peso_cambiar_le (by decide) (by decide)
      exact hestado.trans (peso_bloqueado q)

theorem peso_despertarDeIo (c : ConfigKernel) (pid : ℤ) : peso (despertarDeIo c k pid) p ≤
    peso k p := by
  rw [despertarDeIo]
  split
  · exact le_rfl
  · exact le_rfl
  split
  · next h =>
      rw [peso_desalojar]
      exact peso_desbloquear h
  split
  · next h => exact peso_desbloquearSuspendido h
  · exact le_rfl

theorem peso_vaciarEspera (xs : List Solicitud) : peso (vaciarEspera xs k).1 p ≤ peso k p := by
  induction xs generalizing k with
  | nil => exact le_rfl
  | cons sol xs ih =>
    rw [vaciarEspera]
    split
    · exact le_rfl
    · exact ih
    · exact ih.trans (peso_bloqueado _)

theorem peso_manejarDesconexionIo (nombre : List Byte) (fd : ℕ) :
    peso (manejarDesconexionIo k nombre fd).1 p ≤ peso k p := by
  rw [manejarDesconexionIo]
  split
  · exact le_rfl
  split
  · exact le_rfl
  split
  · exact le_rfl
  dsimp only
  split
  · exact peso_vaciarEspera (k := k) _
  · exact le_rfl

/-- The candidate of the long-term planner goes from the head of its queue to `cola_ready`. -/
theorem peso_admitir (c : ConfigKernel) {susp : Bool} (h : (k.colas (colaDe susp)).head? = some q) :
    peso (admitir c k q susp) p ≤ peso k p := by
  obtain ⟨resto, hresto⟩ := List.head?_eq_some_iff.mp h
  obtain ⟨e, i, hadmitir, -⟩ := admitir_eq c k q susp
  have hespera : espera (admitir c k q susp) p ≤ espera k p := by
    rw [hadmitir]
    exact espera_cambiar_le (q := q) (e := .ready) (by decide) (by decide)
  have hcuenta : (k.colas (colaDe susp)).count p = resto.count p + if q = p then 1 else 0 := by
    rw [hresto, List.count_cons]
    simp
  have hcolas : (admitir c k q susp).colas = Function.update (Function.update k.colas (colaDe susp)
      resto) .ready (k.colas .ready ++ [q]) := by
    rw [hadmitir]
    dsimp only
    rw [hresto, List.tail_cons]
  simp only [peso, hcolas]
  cases susp <;> simp [colaDe, List.count_singleton] at hcuenta ⊢ <;> omega

theorem peso_elegir (c : ConfigKernel) : peso (elegirCandidato c k) p = peso k p := by
  have hespera : espera (elegirCandidato c k) p = espera k p := by
    rw [elegirCandidato]
    split <;> rfl
  simp only [peso, (elegir_colas _).count_eq, hespera]

theorem peso_planificar (c : ConfigKernel) : peso (planificarCortoPlazo c k) p ≤ peso k p := by
  have hperm : ∀ pcb resto, ordenReady c k = pcb :: resto →
      (k.colas .ready).count p = resto.count p + if pcb = p then 1 else 0 := by
    intro pcb resto horden
    rw [← (ordenReady_perm (c := c)).count_eq, horden, List.count_cons]
    simp
  rcases planificar_casos c k with h | h | ⟨pcb, resto, horden, -, h⟩ | ⟨pcb, resto, i, cpu,
      horden, -, h⟩
  · rw [h]
    exact le_rfl
  · rw [h]
    exact le_rfl
  · have hcuenta := hperm pcb resto horden
    have hcolas : (planificarCortoPlazo c k).colas = Function.update k.colas .ready
        (pcb :: resto) := by
      rw [h]
      rfl
    have hespera : espera (planificarCortoPlazo c k) p = espera k p := by
      rw [h]
      rfl
    simp only [peso, hcolas, hespera]
    simp [List.count_cons]
    omega
  · have hcuenta := hperm pcb resto horden
    have hcolas : (planificarCortoPlazo c k).colas = Function.update (Function.update k.colas .ready
        resto) .running (k.colas .running ++ [pcb]) := by
      rw [h]
      rfl
    have hespera : espera (planificarCortoPlazo c k) p ≤ espera k p := by
      have heq : espera (planificarCortoPlazo c k) p = espera (k.cambiarEstado pcb .running) p := by
        rw [h]
        by_cases hp : p = pcb
        · subst hp
          simp only [espera, estadoDe, despachado, Kernel.cambiarEstado, Kernel.conPcb,
            Function.update_self, Option.map_map]
          rfl
        · simp only [espera, estadoDe, despachado, Kernel.cambiarEstado, Kernel.conPcb,
            Function.update_of_ne hp]
      rw [heq]
      exact espera_cambiar_le (by decide) (by decide)
    simp only [peso, hcolas]
    simp [List.count_singleton]
    omega

/-- The new process is nowhere else. -/
theorem peso_crear (c : ConfigKernel) (path : List Byte) (tamanio : ℤ)
    (absoluto : Option (List Byte))
    (hlibre : peso k k.ultimoPid = 0) :
    peso (crearPcb c k path tamanio absoluto) p ≤ if p = k.ultimoPid then 1 else peso k p := by
  have hcolas : ∀ e, (crearPcb c k path tamanio absoluto).colas e =
      (k.agregar .new k.ultimoPid).colas e := by
    intro e
    rw [crearPcb]
    split <;> rfl
  have hespera : espera (crearPcb c k path tamanio absoluto) p = if p = k.ultimoPid then 0
      else espera k p := by
    rw [crearPcb]
    by_cases h : p = k.ultimoPid
    · subst h
      split <;> simp [espera, estadoDe, Kernel.agregar, Kernel.postNewOMemoria]
    · split <;> simp [espera, estadoDe, Kernel.agregar, Kernel.postNewOMemoria, h]
  simp only [peso, hcolas, count_agregar, hespera] at hlibre ⊢
  by_cases h : p = k.ultimoPid
  · subst h
    simp
    omega
  · have h' : ¬ k.ultimoPid = p := fun heq => h heq.symm
    simp [h, h']

/-- A process that a thread has in its hands waits from now on. -/
theorem peso_bloquear {t : Kernel}
    (hcolas : t.colas = ((k.quitar .running q).agregar .blocked q).colas)
    (hespera : p ≠ q → espera t p = espera k p) : peso t p ≤ peso k p + [q].count p := by
  have huno : espera t p ≤ 1 := espera_le
  simp only [peso, hcolas, count_agregar, count_quitar]
  by_cases h : p = q
  · subst h
    simp
    omega
  · have h' : ¬ q = p := fun heq => h heq.symm
    rw [hespera h]
    simp [h']

theorem peso_agregar_ready : peso (k.agregar .ready q) p = peso k p + [q].count p := by
  have hespera : espera (k.agregar .ready q) p = espera k p := rfl
  simp only [peso, hespera, count_agregar]
  by_cases h : q = p
  · simp [h]
    omega
  · simp [h]

theorem estadoDe_conPcb {f : Pcb → Pcb} (hf : ∀ x, (f x).estado = x.estado) :
    estadoDe (k.conPcb q f) p = estadoDe k p := by
  rw [estadoDe, estadoDe, Kernel.conPcb]
  dsimp only
  by_cases h : p = q
  · subst h
    rw [Function.update_self, Option.map_map]
    cases k.pcbs p with
    | none => rfl
    | some x => exact congrArg some (hf x)
  · rw [Function.update_of_ne h]

theorem espera_conPcb {f : Pcb → Pcb} (hf : ∀ x, (f x).estado = x.estado) :
    espera (k.conPcb q f) p = espera k p := by
  rw [espera, estadoDe_conPcb hf]
  rfl

theorem peso_conPcb {f : Pcb → Pcb} (hf : ∀ x, (f x).estado = x.estado) :
    peso (k.conPcb q f) p = peso k p := congrArg _ (espera_conPcb hf)

theorem actualizar_estado (c : ConfigKernel) (ahora pc : ℤ) (motivo : Motivo) (x : Pcb) :
    (actualizarRafaga c ahora pc motivo x).estado = x.estado := by
  simp only [actualizarRafaga, calcularSiguienteRafaga]
  split
  · rfl
  · split <;> rfl

/-- A block is freed. -/
theorem espera_liberar {t : Kernel} (hpcbs : t.pcbs = Function.update k.pcbs q none) :
    espera t p ≤ espera k p := by
  have hestado : estadoDe t p = none ∨ estadoDe t p = estadoDe k p := by
    rw [estadoDe, estadoDe, hpcbs]
    by_cases h : p = q
    · subst h
      rw [Function.update_self]
      exact Or.inl rfl
    · rw [Function.update_of_ne h]
      exact Or.inr rfl
  rw [espera, espera]
  rcases hestado with h | h
  · rw [h]
    exact Nat.zero_le _
  · rw [h]

end Pesos

section Acciones

variable {c : ConfigKernel} {k : Kernel} {a : Accion} {p : ℤ}

/-- The process of a CPU leaves `cola_exec` for the hands of the thread that listens. -/
theorem cuenta_respuesta (cpu fd : ℕ) (pid pc : ℤ) (motivo : Motivo)
    (hexec : ∀ q, (k.cpus cpu).pcbEnEjecucion = some q → q ∈ k.colas .running) :
    peso (recibirRespuesta k c cpu fd pid pc motivo) p +
      ((trasRespuesta k cpu pid motivo).filterMap enMano).count p ≤ peso k p := by
  rw [recibirRespuesta, trasRespuesta]
  cases hen : (k.cpus cpu).pcbEnEjecucion with
  | none => exact le_rfl
  | some pcb =>
    dsimp only
    cases hpcb : k.pcbs pcb with
    | none => exact le_rfl
    | some x =>
      dsimp only
      split
      · exact peso_quitar_le (k := recibir k fd) .running
      · have hpeso : peso (((recibir k fd).conPcb pcb (actualizarRafaga c k.reloj pc motivo)).quitar
            .running pcb) p = peso (k.quitar .running pcb) p :=
          peso_conPcb (k := k.quitar .running pcb) (actualizar_estado c k.reloj pc motivo)
        have hmano : ([segunMotivo cpu pcb motivo].filterMap enMano).count p ≤ if pcb = p then 1
            else 0 := by
          cases motivo <;> simp [segunMotivo, enMano, List.filterMap, List.count_singleton]
        have hsale := peso_sacar (p := p) (hexec pcb hen)
        omega

/-- The actions that create a process, or take one from or to the hands of a thread. -/
def mueveMano : Accion → Bool
  | .recibeInitProc _ _ _ _ _ | .recibeRespuesta _ _ _ _ _ | .escuchaBloquea _ _ _ _
  | .escuchaSinDispositivo _ _ | .escuchaBloqueaDump _ _ | .escuchaAgregaReady _ _ => true
  | _ => false

theorem mano_destino (ha : mueveMano a = false) : ((programa c).destino k a).filterMap
    enMano = [] := by
  cases a with
  | recibeInitProc _ _ _ _ _ | recibeRespuesta _ _ _ _ _ | escuchaBloquea _ _ _ _
  | escuchaSinDispositivo _ _ | escuchaBloqueaDump _ _ | escuchaAgregaReady _ _ => cases ha
  | _ =>
    dsimp only [programa, transicion, trasDump]
    repeat' split
    all_goals rfl

theorem peso_efecto (ha : mueveMano a = false)
    (hcand : ∀ q susp, a = .largoResuelve q susp true → (k.colas (colaDe susp)).head? = some q) :
    peso ((programa c).efecto k a) p ≤ peso k p := by
  cases a with
  | recibeInitProc _ _ _ _ _ | recibeRespuesta _ _ _ _ _ | escuchaBloquea _ _ _ _
  | escuchaSinDispositivo _ _ | escuchaBloqueaDump _ _ | escuchaAgregaReady _ _ => cases ha
  | largoElige => exact (peso_elegir c).le
  | largoEnvia pcb susp | gestorEnvia pcb | dumpEnvia pcb =>
    dsimp only [programa, transicion]
    split <;> exact le_rfl
  | largoResuelve pcb susp ok =>
    cases ok with
    | false => exact le_rfl
    | true => exact peso_admitir c (hcand pcb susp rfl)
  | cortoPlanifica => exact peso_planificar c
  | gestorToma =>
    dsimp only [programa, transicion]
    split
    · exact le_rfl
    · next pcb resto hexit =>
        have hcolas : peso ({ k with colas := Function.update k.colas .exit resto } : Kernel) p =
            peso k p := rfl
        exact (peso_cambiar_le (by decide) (by decide)).trans hcolas.le
  | gestorLibera pcb ok =>
    dsimp only [programa, transicion]
    split
    · exact le_rfl
    · refine Nat.add_le_add (le_of_eq ?_) (espera_liberar (q := pcb) ?_)
      · split <;> rfl
      · split <;> rfl
  | suspensionVence pid desde bloqueo =>
    dsimp only [programa, transicion]
    split
    · exact le_rfl
    · exact le_rfl
    split
    · next h => exact peso_suspender h
    · exact le_rfl
  | suspensionResuelve ok =>
    dsimp only [programa, transicion]
    split <;> exact le_rfl
  | dumpResuelve pcb ok => exact peso_resolverDump pcb ok
  | dumpFallaConexion pcb | escuchaFinaliza cpu pcb | ioFinaliza pcb resto =>
    exact peso_cambiar_le (e := .exit) (by decide) (by decide)
  | escuchaCambiaExit cpu pcb =>
    exact (peso_congr (k := k.cambiarEstado pcb .exit) rfl rfl).le.trans
      (peso_cambiar_le (by decide) (by decide))
  | escuchaCambiaReady cpu pcb =>
    exact (peso_congr (k := k.cambiarEstado pcb .ready) rfl rfl).le.trans
      (peso_cambiar_le (by decide) (by decide))
  | cpuRegistra fd nombre =>
    dsimp only [programa, transicion, registrarCpu]
    split <;> exact le_rfl
  | interruptRegistra fd nombre =>
    dsimp only [programa, transicion]
    split <;> exact le_rfl
  | recibeOtro cpu fd =>
    dsimp only [programa, transicion]
    split
    · exact le_rfl
    · exact peso_quitar_le (k := recibir k fd) .running
  | escuchaEncola cpu pcb grupo duracion =>
    dsimp only [programa, transicion, encolarSolicitud]
    split <;> exact le_rfl
  | escuchaDesaloja cpu pcb => exact (peso_desalojar c pcb).le
  | escuchaRevisa cpu =>
    dsimp only [programa, transicion]
    split
    · exact le_rfl
    · next pcb _ =>
        have hestado : peso ((k.quitar .running pcb).cambiarEstado pcb .exit) p ≤
            peso (k.quitar .running pcb) p := peso_cambiar_le (by decide) (by decide)
        refine (peso_congr rfl rfl).le.trans (hestado.trans (peso_quitar_le .running))
  | ioRegistra fd nombre =>
    dsimp only [programa, transicion, registrarInstancia]
    split <;> exact le_rfl
  | ioDespacha grupo =>
    dsimp only [programa, transicion, despacharGrupo]
    split <;> exact le_rfl
  | ioTermina fd nombre terminadas pid =>
    dsimp only [programa, transicion, manejarFinIo]
    split
    · exact le_rfl
    · exact peso_despertarDeIo (k := k) c pid
  | ioDesconecta fd nombre terminadas => exact peso_manejarDesconexionIo nombre fd
  | _ => exact le_rfl

/-- What a step does to the count of a process. -/
theorem cuenta_efecto
    (hcand : ∀ q susp, a = .largoResuelve q susp true → (k.colas (colaDe susp)).head? = some q)
    (hexec : ∀ cpu fd pid pc motivo q, a = .recibeRespuesta cpu fd pid pc motivo →
      (k.cpus cpu).pcbEnEjecucion = some q → q ∈ k.colas .running)
    (hlibre : peso k k.ultimoPid = 0) :
    peso ((programa c).efecto k a) p + (((programa c).destino k a).filterMap enMano).count p ≤
        peso k p + ([(programa c).origen a].filterMap enMano).count p ∨
      p = k.ultimoPid ∧ ((programa c).efecto k a).ultimoPid = k.ultimoPid + 1 ∧
        peso ((programa c).efecto k a) p + (((programa c).destino k a).filterMap enMano).count
          p ≤ 1 := by
  cases ha : mueveMano a with
  | false =>
    left
    rw [mano_destino ha]
    exact (peso_efecto ha hcand).trans (Nat.le_add_right _ _)
  | true =>
    cases a with
    | recibeInitProc cpu fd path tamanio absoluto =>
      obtain ⟨e, he⟩ := initProc_igual (c := c) (k := k) cpu fd path tamanio absoluto
      have hpeso : peso ((programa c).efecto k (.recibeInitProc cpu fd path tamanio absoluto)) p ≤
          if p = k.ultimoPid then 1 else peso k p := by
        rw [he]
        exact peso_crear (k := recibir k fd) c path tamanio absoluto hlibre
      have hmano : ((programa c).destino k (.recibeInitProc cpu fd path tamanio absoluto)).filterMap
          enMano = [] := rfl
      rw [hmano]
      by_cases h : p = k.ultimoPid
      · right
        rw [if_pos h] at hpeso
        refine ⟨h, ?_, hpeso⟩
        rw [he]
        exact (crear_nuevos (k := recibir k fd) path tamanio absoluto).2.2.1
      · left
        rw [if_neg h] at hpeso
        exact hpeso
    | recibeRespuesta cpu fd pid pc motivo =>
      left
      exact cuenta_respuesta cpu fd pid pc motivo fun q => hexec cpu fd pid pc motivo q rfl
    | escuchaBloquea cpu pcb dispositivo duracion =>
      left
      dsimp only [programa, transicion]
      split
      · exact Nat.add_le_add_right (peso_quitar_le .running) _
      · refine peso_bloquear rfl fun hp => ?_
        have hcampo : espera ((k.quitar .running pcb).conPcb pcb fun x =>
            { x with tiempoBloqueoIo := duracion }) p = espera k p := espera_conPcb fun _ => rfl
        rw [← hcampo]
        exact espera_otro hp
    | escuchaSinDispositivo cpu pcb =>
      left
      exact (peso_quitar_le .running).trans (Nat.le_add_right _ _)
    | escuchaBloqueaDump cpu pcb =>
      left
      exact peso_bloquear rfl fun hp =>
        espera_otro (k := (k.quitar .running pcb).agregar .blocked pcb) hp
    | escuchaAgregaReady cpu pcb =>
      left
      exact peso_agregar_ready.le
    | _ => cases ha

end Acciones

section Running

variable (c : ConfigKernel) (k : Kernel)

theorem running_despertar (pid : ℤ) : (despertarDeIo c k pid).colas .running =
    k.colas .running := by
  rw [despertarDeIo]
  split
  · rfl
  · rfl
  split
  · rw [colas_desalojar]
    rfl
  · split <;> rfl

theorem running_vaciar (xs : List Solicitud) :
    (vaciarEspera xs k).1.colas .running = k.colas .running := by
  induction xs generalizing k with
  | nil => rfl
  | cons sol xs ih =>
    rw [vaciarEspera]
    split
    · rfl
    · exact ih k
    · refine (ih _).trans ?_
      rw [quitarBloqueado]
      repeat' split
      all_goals rfl

theorem running_desconexion (nombre : List Byte) (fd : ℕ) :
    (manejarDesconexionIo k nombre fd).1.colas .running = k.colas .running := by
  rw [manejarDesconexionIo]
  split
  · rfl
  split
  · rfl
  split
  · rfl
  dsimp only
  split
  · exact running_vaciar k _
  · rfl

end Running

section Ejecuciones

/-- A CPU executes a process: it has it, and no thread is handling its response. -/
def Ejecuta (s : Sistema Kernel Hilo) (cpu : ℕ) (p : ℤ) : Prop :=
  (s.comun.cpus cpu).pcbEnEjecucion = some p ∧ cpu ∉ s.hilos.filterMap manejaDe

/-- The CPU is in the list, or its thread is about to finalise its process. -/
def Listada (s : Sistema Kernel Hilo) (cpu : ℕ) : Prop :=
  cpu ∈ s.comun.listaCpus ∨ .escuchaRevisa cpu ∈ s.hilos

structure Ejecucion (s : Sistema Kernel Hilo) : Prop where
  conocida : ∀ cpu p, (s.comun.cpus cpu).pcbEnEjecucion = some p → cpu < s.comun.totalCpus
  enCola : ∀ cpu p, Ejecuta s cpu p → p ∈ s.comun.colas .running
  deCola : ∀ p ∈ s.comun.colas .running, ∃ cpu, Ejecuta s cpu p ∧ Listada s cpu
  unica : ∀ cpu cpu' p, Ejecuta s cpu p → Ejecuta s cpu' p → cpu = cpu'

variable {s s' : Sistema Kernel Hilo} {cpu : ℕ} {pcb : ℤ}

/-- No process starts or stops. -/
theorem Ejecucion.igual (hI : Ejecucion s)
    (hconocida : ∀ cpu p, (s'.comun.cpus cpu).pcbEnEjecucion = some p → cpu < s'.comun.totalCpus)
    (hej : ∀ cpu p, Ejecuta s' cpu p ↔ Ejecuta s cpu p)
    (hcola : ∀ p, p ∈ s'.comun.colas .running ↔ p ∈ s.comun.colas .running)
    (hlista : ∀ cpu p, Ejecuta s cpu p → Listada s cpu → Listada s' cpu) : Ejecucion s' := by
  refine ⟨hconocida, ?_, ?_, ?_⟩
  · intro cpu p h
    exact (hcola p).mpr (hI.enCola cpu p ((hej cpu p).mp h))
  · intro p hp
    obtain ⟨cpu, h, hl⟩ := hI.deCola p ((hcola p).mp hp)
    exact ⟨cpu, (hej cpu p).mpr h, hlista cpu p h hl⟩
  · intro cpu cpu' p h h'
    exact hI.unica cpu cpu' p ((hej cpu p).mp h) ((hej cpu' p).mp h')

/-- A process stops. -/
theorem Ejecucion.deja (hI : Ejecucion s) (hnodup : (s.comun.colas .running).Nodup)
    (hde : Ejecuta s cpu pcb)
    (hconocida : ∀ cpu p, (s'.comun.cpus cpu).pcbEnEjecucion = some p → cpu < s'.comun.totalCpus)
    (hej : ∀ cpu' p, Ejecuta s' cpu' p ↔ Ejecuta s cpu' p ∧ cpu' ≠ cpu)
    (hcola : s'.comun.colas .running = (s.comun.colas .running).erase pcb)
    (hlista : ∀ cpu', cpu' ≠ cpu → Listada s cpu' → Listada s' cpu') : Ejecucion s' := by
  refine ⟨hconocida, ?_, ?_, ?_⟩
  · intro cpu' p h
    obtain ⟨h, hne⟩ := (hej cpu' p).mp h
    rw [hcola]
    refine (List.mem_erase_of_ne ?_).mpr (hI.enCola cpu' p h)
    rintro rfl
    exact hne (hI.unica cpu' cpu p h hde)
  · intro p hp
    rw [hcola] at hp
    obtain ⟨hne, hp⟩ := hnodup.mem_erase_iff.mp hp
    obtain ⟨cpu', h, hl⟩ := hI.deCola p hp
    have hcpu : cpu' ≠ cpu := by
      rintro rfl
      exact hne (Option.some.inj (h.1.symm.trans hde.1))
    exact ⟨cpu', (hej cpu' p).mpr ⟨h, hcpu⟩, hlista cpu' hcpu hl⟩
  · intro cpu₁ cpu₂ p h₁ h₂
    exact hI.unica cpu₁ cpu₂ p ((hej cpu₁ p).mp h₁).1 ((hej cpu₂ p).mp h₂).1

/-- A process starts. -/
theorem Ejecucion.toma (cpu : ℕ) (hI : Ejecucion s) (hno : pcb ∉ s.comun.colas .running)
    (hlibre : ∀ p, ¬ Ejecuta s cpu p) (hlistada : Listada s' cpu)
    (hconocida : ∀ cpu p, (s'.comun.cpus cpu).pcbEnEjecucion = some p → cpu < s'.comun.totalCpus)
    (hej : ∀ cpu' p, Ejecuta s' cpu' p ↔ Ejecuta s cpu' p ∨ cpu' = cpu ∧ p = pcb)
    (hcola : s'.comun.colas .running = s.comun.colas .running ++ [pcb])
    (hlista : ∀ cpu', Listada s cpu' → Listada s' cpu') : Ejecucion s' := by
  refine ⟨hconocida, ?_, ?_, ?_⟩
  · intro cpu' p h
    rw [hcola]
    rcases (hej cpu' p).mp h with h | ⟨-, rfl⟩
    · exact List.mem_append_left _ (hI.enCola cpu' p h)
    · exact List.mem_append_right _ List.mem_cons_self
  · intro p hp
    rw [hcola] at hp
    rcases List.mem_append.mp hp with hp | hp
    · obtain ⟨cpu', h, hl⟩ := hI.deCola p hp
      exact ⟨cpu', (hej cpu' p).mpr (Or.inl h), hlista cpu' hl⟩
    · exact ⟨cpu, (hej cpu p).mpr (Or.inr ⟨rfl, List.mem_singleton.mp hp⟩), hlistada⟩
  · intro cpu₁ cpu₂ p h₁ h₂
    rcases (hej cpu₁ p).mp h₁ with h₁ | ⟨rfl, rfl⟩
    · rcases (hej cpu₂ p).mp h₂ with h₂ | ⟨rfl, rfl⟩
      · exact hI.unica cpu₁ cpu₂ p h₁ h₂
      · exact absurd (hI.enCola cpu₁ p h₁) hno
    · rcases (hej cpu₂ p).mp h₂ with h₂ | ⟨rfl, -⟩
      · exact absurd (hI.enCola cpu₂ p h₂) hno
      · rfl

end Ejecuciones

section Pasos

variable {c : ConfigKernel} {k : Kernel} {l r : List Hilo} {a : Accion} {cpu : ℕ}

structure UnaVez (s : Sistema Kernel Hilo) : Prop where
  todos : ∀ p, peso s.comun p + (s.hilos.filterMap enMano).count p ≤ 1
  nuevos : ∀ p, s.comun.ultimoPid ≤ p → peso s.comun p + (s.hilos.filterMap enMano).count p = 0

structure Asignados (s : Sistema Kernel Hilo) : Prop where
  planificador : Planificador s
  escuchas : Escuchas s
  unaVez : UnaVez s
  ejecucion : Ejecucion s

/-- A thread that listens to a CPU, and is not handling its response, is the only one. -/
theorem sin_manejar (cpu : ℕ) (hI : Escuchas ⟨k, l ++ (programa c).origen a :: r⟩)
    (ho : escuchaDe ((programa c).origen a) = some cpu) :
    cpu ∉ l.filterMap manejaDe ∧ cpu ∉ r.filterMap manejaDe := by
  have hsolo := hI.unico.solo ho
  rw [List.filterMap_append, List.mem_append, not_or] at hsolo
  constructor
  · intro hmem
    obtain ⟨h, hh, hm⟩ := List.mem_filterMap.mp hmem
    exact hsolo.1 (List.mem_filterMap.mpr ⟨h, hh, maneja_escucha hm⟩)
  · intro hmem
    obtain ⟨h, hh, hm⟩ := List.mem_filterMap.mp hmem
    exact hsolo.2 (List.mem_filterMap.mpr ⟨h, hh, maneja_escucha hm⟩)

theorem mem_filterMap_medio {ι : Type*} {f : Hilo → Option ι} {ds : List Hilo} {x : ι} :
    x ∈ (l ++ (ds ++ r)).filterMap f ↔
      x ∈ l.filterMap f ∨ x ∈ ds.filterMap f ∨ x ∈ r.filterMap f := by
  rw [List.filterMap_append, List.filterMap_append, List.mem_append, List.mem_append]

/-- A process of the CPU that a thread listens to is in `cola_exec`. -/
theorem respuesta_en_exec (hI : Asignados ⟨k, l ++ (programa c).origen a :: r⟩) :
    ∀ cpu fd pid pc motivo q, a = .recibeRespuesta cpu fd pid pc motivo →
      (k.cpus cpu).pcbEnEjecucion = some q → q ∈ k.colas .running := by
  rintro cpu fd pid pc motivo q rfl hq
  have hsin := sin_manejar cpu hI.escuchas rfl
  refine hI.ejecucion.enCola cpu q ⟨hq, fun hmem => ?_⟩
  rw [← List.singleton_append (x := (programa c).origen _), mem_filterMap_medio] at hmem
  rcases hmem with h | h | h
  · exact hsin.1 h
  · cases h
  · exact hsin.2 h

/-- A process is in one place while each response is about a process of `cola_exec`. -/
theorem unaVez_de (hP : Planificador ⟨k, l ++ (programa c).origen a :: r⟩)
    (hU : UnaVez ⟨k, l ++ (programa c).origen a :: r⟩) (hk : k.indefinido = false)
    (hexec : ∀ cpu fd pid pc motivo q, a = .recibeRespuesta cpu fd pid pc motivo →
      (k.cpus cpu).pcbEnEjecucion = some q → q ∈ k.colas .running) :
    UnaVez ⟨(programa c).efecto k a, l ++ ((programa c).destino k a ++ r)⟩ := by
  have hantes : ∀ p, ((l ++ (programa c).origen a :: r).filterMap enMano).count p =
      (l.filterMap enMano).count p + (([(programa c).origen a].filterMap enMano).count p +
        (r.filterMap enMano).count p) := by
    intro p
    rw [← List.singleton_append (x := (programa c).origen a), List.filterMap_append,
      List.filterMap_append, List.count_append, List.count_append]
  have hdespues : ∀ p, ((l ++ ((programa c).destino k a ++ r)).filterMap enMano).count p =
      (l.filterMap enMano).count p + ((((programa c).destino k a).filterMap enMano).count p +
        (r.filterMap enMano).count p) := by
    intro p
    rw [List.filterMap_append, List.filterMap_append, List.count_append, List.count_append]
  have htodos : ∀ p, peso k p + _ ≤ 1 := fun p => hantes p ▸ hU.todos p
  have hnuevos : ∀ p, k.ultimoPid ≤ p → peso k p + _ = 0 := fun p hp =>
    hantes p ▸ hU.nuevos p hp
  have hcuenta := fun p => cuenta_efecto (c := c) (k := k) (a := a) (p := p) ?_ ?_ ?_
  · constructor
    · intro p
      have huno := htodos p
      dsimp only
      rw [hdespues]
      rcases hcuenta p with h | ⟨rfl, -, h⟩
      · omega
      · have hcero := hnuevos _ le_rfl
        omega
    · intro p hp
      dsimp only at hp ⊢
      rw [hdespues]
      rcases hcuenta p with h | ⟨rfl, hn, h⟩
      · have hcero := hnuevos p (ultimoPid_efecto.trans hp)
        omega
      · omega
  · rintro q susp rfl
    exact hP.candidato hk _ (List.mem_append_right _ List.mem_cons_self) q susp rfl
  · exact hexec
  · have hcero := hnuevos _ le_rfl
    omega

theorem unaVez_paso (hI : Asignados ⟨k, l ++ (programa c).origen a :: r⟩)
    (hk : k.indefinido = false) :
    UnaVez ⟨(programa c).efecto k a, l ++ ((programa c).destino k a ++ r)⟩ :=
  unaVez_de hI.planificador hI.unaVez hk (respuesta_en_exec hI)

/-- The actions that start or stop a process, or change what is known of a CPU. -/
def asigna : Accion → Bool
  | .cortoPlanifica | .recibeRespuesta _ _ _ _ _ | .recibeOtro _ _ | .escuchaRevisa _
  | .cpuRegistra _ _ | .escuchaLibera _ | .escuchaFinalizaTomado _ _ | .escuchaQuita _ => true
  | _ => false

theorem running_efecto (ha : asigna a = false) :
    ((programa c).efecto k a).colas .running = k.colas .running ∨
      ∃ p, enMano ((programa c).origen a) = some p ∧
        ((programa c).efecto k a).colas .running = (k.colas .running).erase p := by
  cases a with
  | cortoPlanifica | recibeRespuesta _ _ _ _ _ | recibeOtro _ _ | escuchaRevisa _
  | cpuRegistra _ _ | escuchaLibera _ | escuchaFinalizaTomado _ _ | escuchaQuita _ => cases ha
  | largoElige =>
    left
    dsimp only [programa, transicion, elegirCandidato]
    split
    · rfl
    · refine Function.update_of_ne ?_ _ _
      rw [colaAAdmitir]
      split <;> decide
  | largoEnvia pcb susp | gestorEnvia pcb | dumpEnvia pcb =>
    left
    dsimp only [programa, transicion]
    split <;> rfl
  | largoResuelve pcb susp ok =>
    left
    cases ok with
    | false => rfl
    | true =>
      obtain ⟨e, i, h, -⟩ := admitir_eq c k pcb susp
      have hcolas : ((programa c).efecto k (.largoResuelve pcb susp true)).colas = _ :=
        congrArg Kernel.colas h
      rw [hcolas]
      cases susp <;> rfl
  | gestorToma =>
    left
    dsimp only [programa, transicion]
    split <;> rfl
  | gestorLibera pcb ok =>
    left
    dsimp only [programa, transicion]
    repeat' split
    all_goals rfl
  | suspensionVence pid desde bloqueo =>
    left
    dsimp only [programa, transicion]
    repeat' split
    all_goals rfl
  | suspensionResuelve ok =>
    left
    dsimp only [programa, transicion]
    split <;> rfl
  | dumpResuelve pcb ok =>
    left
    dsimp only [programa, transicion, resolverDump, terminarDump, quitarBloqueado]
    repeat' split
    all_goals rfl
  | interruptRegistra fd nombre =>
    left
    dsimp only [programa, transicion]
    split <;> rfl
  | recibeInitProc cpu fd path tamanio absoluto =>
    left
    obtain ⟨e, he⟩ := initProc_igual (c := c) (k := k) cpu fd path tamanio absoluto
    rw [he, crearPcb]
    split <;> rfl
  | escuchaBloquea cpu pcb dispositivo duracion =>
    right
    refine ⟨pcb, rfl, ?_⟩
    dsimp only [programa, transicion]
    split <;> rfl
  | escuchaSinDispositivo cpu pcb | escuchaBloqueaDump cpu pcb => exact Or.inr ⟨pcb, rfl, rfl⟩
  | escuchaEncola cpu pcb grupo duracion =>
    left
    dsimp only [programa, transicion, encolarSolicitud]
    split <;> rfl
  | escuchaDesaloja cpu pcb =>
    left
    exact congrFun (colas_desalojar pcb) .running
  | ioRegistra fd nombre =>
    left
    dsimp only [programa, transicion, registrarInstancia]
    split <;> rfl
  | ioDespacha grupo =>
    left
    dsimp only [programa, transicion, despacharGrupo]
    split <;> rfl
  | ioTermina fd nombre terminadas pid =>
    left
    dsimp only [programa, transicion, manejarFinIo]
    split
    · rfl
    · exact running_despertar c k pid
  | ioDesconecta fd nombre terminadas =>
    left
    exact running_desconexion k nombre fd
  | _ =>
    left
    rfl

theorem maneja_igual (ha : asigna a = false) :
    ((programa c).destino k a).filterMap manejaDe = [(programa c).origen a].filterMap manejaDe := by
  cases a with
  | cortoPlanifica | recibeRespuesta _ _ _ _ _ | recibeOtro _ _ | escuchaRevisa _
  | cpuRegistra _ _ | escuchaLibera _ | escuchaFinalizaTomado _ _ | escuchaQuita _ => cases ha
  | _ =>
    dsimp only [programa, transicion, trasDump]
    repeat' split
    all_goals rfl

theorem cpus_igual (ha : asigna a = false) :
    (∀ cpu, (((programa c).efecto k a).cpus cpu).pcbEnEjecucion = (k.cpus cpu).pcbEnEjecucion) ∧
      ((programa c).efecto k a).listaCpus = k.listaCpus ∧
      ((programa c).efecto k a).totalCpus = k.totalCpus := by
  cases hre : reasigna a with
  | false =>
    have h := mismas_efecto (c := c) (k := k) hre
    exact ⟨h.en, h.lista, h.total⟩
  | true =>
    cases a with
    | escuchaCierra cpu =>
      refine ⟨fun cpu' => ?_, rfl, rfl⟩
      by_cases heq : cpu' = cpu
      · subst heq
        have hself := k.conCpu_misma (c := cpu') fun x =>
          { x with cpuLibre := false, socketDispatch := none }
        exact (congrArg Cpu.pcbEnEjecucion hself :)
      · have hotra := k.conCpu_otra (c := cpu) (fun x =>
          { x with cpuLibre := false, socketDispatch := none }) heq
        exact (congrArg Cpu.pcbEnEjecucion hotra :)
    | cortoPlanifica | cpuRegistra _ _ | escuchaLibera _ | escuchaQuita _
    | escuchaFinalizaTomado _ _ => cases ha
    | _ => cases hre

theorem ejecuta_igual {k' : Kernel} {o : Hilo} {ds : List Hilo}
    (hen : ∀ cpu, (k'.cpus cpu).pcbEnEjecucion = (k.cpus cpu).pcbEnEjecucion)
    (hm : ds.filterMap manejaDe = [o].filterMap manejaDe) (cpu : ℕ) (p : ℤ) :
    Ejecuta ⟨k', l ++ (ds ++ r)⟩ cpu p ↔ Ejecuta ⟨k, l ++ o :: r⟩ cpu p := by
  rw [Ejecuta, Ejecuta, ← List.singleton_append (x := o), mem_filterMap_medio,
    mem_filterMap_medio, hm]
  dsimp only
  rw [hen]

/-- A thread stops managing a CPU, or starts to. -/
theorem ejecuta_otra {k' : Kernel} {o : Hilo} {ds : List Hilo} {cpu cpu' : ℕ} {p : ℤ}
    (hen : (k'.cpus cpu').pcbEnEjecucion = (k.cpus cpu').pcbEnEjecucion) (hne : cpu' ≠ cpu)
    (ho : ∀ x ∈ [o].filterMap manejaDe, x = cpu) (hds : ∀ x ∈ ds.filterMap manejaDe, x = cpu) :
    Ejecuta ⟨k', l ++ (ds ++ r)⟩ cpu' p ↔ Ejecuta ⟨k, l ++ o :: r⟩ cpu' p := by
  have hno : cpu' ∉ [o].filterMap manejaDe := fun h => hne (ho cpu' h)
  have hno' : cpu' ∉ ds.filterMap manejaDe := fun h => hne (hds cpu' h)
  rw [Ejecuta, Ejecuta, ← List.singleton_append (x := o), mem_filterMap_medio, mem_filterMap_medio]
  dsimp only
  rw [hen]
  simp only [hno, hno']

theorem listada_igual {k' : Kernel} {o : Hilo} {ds : List Hilo} {cpu : ℕ}
    (hlista : cpu ∈ k.listaCpus → cpu ∈ k'.listaCpus) (ho : o ≠ .escuchaRevisa cpu)
    (h : Listada ⟨k, l ++ o :: r⟩ cpu) : Listada ⟨k', l ++ (ds ++ r)⟩ cpu := by
  rcases h with h | h
  · exact Or.inl (hlista h)
  · right
    simp only [List.mem_append, List.mem_cons] at h ⊢
    rcases h with h | h | h
    · exact Or.inl h
    · exact absurd h.symm ho
    · exact Or.inr (Or.inr h)

/-- A process in the hands of a thread is not in `cola_exec`. -/
theorem en_mano_no_running (hI : Asignados ⟨k, l ++ (programa c).origen a :: r⟩) {p : ℤ}
    (hp : enMano ((programa c).origen a) = some p) : p ∉ k.colas .running := by
  intro hmem
  have huno := hI.unaVez.todos p
  have hcola : 0 < (k.colas .running).count p := List.count_pos_iff.mpr hmem
  have hmano : 0 < ((l ++ (programa c).origen a :: r).filterMap enMano).count p := by
    refine List.count_pos_iff.mpr ?_
    rw [List.filterMap_append, List.filterMap_cons_some hp]
    exact List.mem_append_right _ List.mem_cons_self
  rw [peso] at huno
  dsimp only at huno
  omega

theorem running_nodup (hI : Asignados ⟨k, l ++ (programa c).origen a :: r⟩) :
    (k.colas .running).Nodup := by
  refine List.nodup_iff_count.mpr fun p => ?_
  have huno := hI.unaVez.todos p
  rw [peso] at huno
  dsimp only at huno
  omega

theorem ejecucion_otra (hI : Asignados ⟨k, l ++ (programa c).origen a :: r⟩)
    (ha : asigna a = false) :
    Ejecucion ⟨(programa c).efecto k a, l ++ ((programa c).destino k a ++ r)⟩ := by
  obtain ⟨hen, hlista, htotal⟩ := cpus_igual (c := c) (k := k) ha
  refine hI.ejecucion.igual ?_ (ejecuta_igual hen (maneja_igual ha)) ?_ ?_
  · intro cpu p hp
    dsimp only at hp ⊢
    rw [hen] at hp
    rw [htotal]
    exact hI.ejecucion.conocida cpu p hp
  · intro p
    rcases running_efecto (c := c) (k := k) ha with h | ⟨q, hq, h⟩
    · exact iff_of_eq (congrArg (p ∈ ·) h)
    · have hno := en_mano_no_running hI hq
      dsimp only
      rw [h, List.erase_of_not_mem hno]
  · intro cpu p _ hl
    refine listada_igual (fun hmem => hlista ▸ hmem) ?_ hl
    intro ho
    cases a with
    | escuchaRevisa _ => cases ha
    | _ => cases ho

theorem ejecucion_planifica (hI : Asignados ⟨k, l ++ (programa c).origen .cortoPlanifica :: r⟩) :
    Ejecucion ⟨(programa c).efecto k .cortoPlanifica,
      l ++ ((programa c).destino k .cortoPlanifica ++ r)⟩ := by
  have higual : MismasCpus k (planificarCortoPlazo c k) →
      (planificarCortoPlazo c k).colas .running = k.colas .running →
        Ejecucion ⟨(programa c).efecto k
        .cortoPlanifica, l ++ ((programa c).destino k .cortoPlanifica ++ r)⟩ := by
    intro h hrun
    refine hI.ejecucion.igual ?_ (ejecuta_igual h.en rfl)
      (fun p => iff_of_eq (congrArg (p ∈ ·) hrun)) ?_
    · intro cpu p hp
      have hp' := (h.en cpu).symm.trans hp
      exact (hI.ejecucion.conocida cpu p hp').trans_le h.total.ge
    · intro cpu p _ hl
      refine listada_igual (fun hmem => ?_) (by intro h; cases h) hl
      exact h.lista.symm ▸ hmem
  rcases planificar_casos c k with h | h | ⟨pcb, resto, -, -, h⟩ | ⟨pcb, resto, i, cpu, horden,
      hlibre, h⟩
  · exact higual (h ▸ ⟨fun _ => rfl, fun _ => rfl, rfl, rfl⟩) (h ▸ rfl)
  · exact higual (h ▸ ⟨fun _ => rfl, fun _ => rfl, rfl, rfl⟩) (h ▸ rfl)
  · exact higual (h ▸ ⟨fun _ => rfl, fun _ => rfl, rfl, rfl⟩) (h ▸ rfl)
  · obtain ⟨hmem, hl⟩ := obtener_mem hlibre
    obtain ⟨hlt, hnone⟩ := hI.escuchas.lista.libres cpu hmem
    have hnone := hnone.mp hl
    have hefecto : (programa c).efecto k .cortoPlanifica = despachado k pcb resto i cpu := h
    have hno : pcb ∉ k.colas .running := by
      intro hrun
      have huno := hI.unaVez.todos pcb
      have hcola : 0 < (k.colas .running).count pcb := List.count_pos_iff.mpr hrun
      have hready : 0 < (k.colas .ready).count pcb :=
        List.count_pos_iff.mpr (ordenReady_perm.subset (horden ▸ List.mem_cons_self))
      rw [peso] at huno
      dsimp only at huno
      omega
    have hsin : cpu ∉ (l ++ (programa c).origen .cortoPlanifica :: r).filterMap manejaDe := by
      intro hm
      obtain ⟨h, hh, hm⟩ := List.mem_filterMap.mp hm
      obtain ⟨p, hp, -⟩ := (hI.escuchas.hilos h hh).maneja cpu hm
      cases hnone.symm.trans hp
    have hmisma : ((despachado k pcb resto i cpu).cpus cpu).pcbEnEjecucion = some pcb := by
      rw [despachado]
      dsimp only
      rw [Function.update_self]
    have hotra : ∀ cpu', cpu' ≠ cpu → ((despachado k pcb resto i cpu).cpus cpu').pcbEnEjecucion =
        (k.cpus cpu').pcbEnEjecucion := fun cpu' hne =>
      congrArg Cpu.pcbEnEjecucion (Function.update_of_ne hne _ _)
    rw [hefecto]
    refine hI.ejecucion.toma cpu hno (fun p hp => ?_) (Or.inl hmem) ?_ ?_ rfl ?_
    · cases hnone.symm.trans hp.1
    · intro cpu' p hp
      by_cases heq : cpu' = cpu
      · subst heq
        exact hlt
      · exact hI.ejecucion.conocida cpu' p ((hotra cpu' heq).symm.trans hp)
    · intro cpu' p
      by_cases heq : cpu' = cpu
      · subst heq
        constructor
        · intro hp
          exact Or.inr ⟨rfl, Option.some.inj (hp.1.symm.trans hmisma)⟩
        · rintro (hp | ⟨-, rfl⟩)
          · cases hnone.symm.trans hp.1
          · refine ⟨hmisma, fun hm => hsin ?_⟩
            rw [← List.singleton_append (x := (programa c).origen .cortoPlanifica)]
            rw [mem_filterMap_medio] at hm ⊢
            exact hm
      · refine Iff.trans (ejecuta_otra (hotra cpu' heq) heq ?_ ?_)
          ⟨Or.inl, fun h => h.resolve_right fun h => heq h.1⟩
        · intro x hx
          cases hx
        · intro x hx
          cases hx
    · intro cpu' hl'
      exact listada_igual id (by intro h; cases h) hl'

theorem ejecucion_respuesta {cpu fd : ℕ} {pid pc : ℤ} {motivo : Motivo}
    (hI : Asignados ⟨k, l ++ (programa c).origen (.recibeRespuesta cpu fd pid pc motivo) :: r⟩) :
    Ejecucion ⟨(programa c).efecto k (.recibeRespuesta cpu fd pid pc motivo),
      l ++ ((programa c).destino k (.recibeRespuesta cpu fd pid pc motivo) ++ r)⟩ := by
  have hsin := sin_manejar cpu hI.escuchas rfl
  have hconocida : ∀ cpu p, (k.cpus cpu).pcbEnEjecucion = some p → cpu < k.totalCpus :=
    hI.ejecucion.conocida
  dsimp only [programa, transicion, recibirRespuesta, trasRespuesta]
  cases hen : (k.cpus cpu).pcbEnEjecucion with
  | none =>
    refine hI.ejecucion.igual hconocida (ejecuta_igual (fun _ => rfl) rfl) (fun _ => Iff.rfl) ?_
    intro cpu' p _ hl
    exact listada_igual id (by intro h; cases h) hl
  | some pcb =>
    dsimp only
    cases hpcb : k.pcbs pcb with
    | none =>
      refine hI.ejecucion.igual hconocida (ejecuta_igual (fun _ => rfl) rfl) (fun _ => Iff.rfl) ?_
      intro cpu' p _ hl
      exact listada_igual id (by intro h; cases h) hl
    | some x =>
      have hejecuta : Ejecuta ⟨k, l ++ (programa c).origen
          (.recibeRespuesta cpu fd pid pc motivo) :: r⟩
          cpu pcb := by
        refine ⟨hen, fun hm => ?_⟩
        rw [← List.singleton_append (x := (programa c).origen _), mem_filterMap_medio] at hm
        rcases hm with hm | hm | hm
        · exact hsin.1 hm
        · cases hm
        · exact hsin.2 hm
      -- the response leaves the thread managing the CPU, whatever its motive
      have hdeja : ∀ (k' : Kernel) (d : Hilo), manejaDe d = some cpu → k'.cpus = k.cpus →
          k'.totalCpus = k.totalCpus → k'.listaCpus = k.listaCpus →
          k'.colas .running = (k.colas .running).erase pcb → Ejecucion ⟨k', l ++ ([d] ++ r)⟩ := by
        intro k' d hd hcpus htotal hlista hcola
        have hds : [d].filterMap manejaDe = [cpu] := List.filterMap_cons_some hd
        refine hI.ejecucion.deja (running_nodup hI) hejecuta ?_ ?_ hcola ?_
        · intro cpu' p hp
          dsimp only at hp ⊢
          rw [hcpus] at hp
          rw [htotal]
          exact hconocida cpu' p hp
        · intro cpu' p
          by_cases heq : cpu' = cpu
          · subst heq
            refine iff_of_false (fun h => h.2 ?_) fun h => h.2 rfl
            dsimp only
            rw [mem_filterMap_medio, hds]
            exact Or.inr (Or.inl List.mem_cons_self)
          · refine (ejecuta_otra (by rw [hcpus]) heq (fun x hx => by cases hx) ?_).trans
              (and_iff_left heq).symm
            rw [hds]
            exact fun x hx => List.mem_singleton.mp hx
        · intro cpu' _ hl
          refine listada_igual (fun hmem => ?_) (by intro h; cases h) hl
          rwa [hlista]
      dsimp only
      split
      · exact hdeja _ _ rfl rfl rfl rfl rfl
      · refine hdeja _ _ ?_ rfl rfl rfl rfl
        cases motivo <;> rfl

theorem ejecucion_revisa (hI : Asignados ⟨k, l ++ (programa c).origen (.escuchaRevisa cpu) :: r⟩) :
    Ejecucion ⟨(programa c).efecto k (.escuchaRevisa cpu),
      l ++ ((programa c).destino k (.escuchaRevisa cpu) ++ r)⟩ := by
  have hsin := sin_manejar cpu hI.escuchas rfl
  have hconocida : ∀ cpu p, (k.cpus cpu).pcbEnEjecucion = some p → cpu < k.totalCpus :=
    hI.ejecucion.conocida
  have hrevisa : ∀ cpu', cpu' ≠ cpu →
      (programa c).origen (.escuchaRevisa cpu) ≠ .escuchaRevisa cpu' := by
    intro cpu' hne h
    cases h
    exact hne rfl
  dsimp only [programa, transicion]
  cases hen : (k.cpus cpu).pcbEnEjecucion with
  | none =>
    refine hI.ejecucion.igual hconocida (ejecuta_igual (fun _ => rfl) rfl) (fun _ => Iff.rfl) ?_
    intro cpu' p hp hl
    refine listada_igual id (hrevisa cpu' ?_) hl
    rintro rfl
    cases hen.symm.trans hp.1
  | some pcb =>
    have hejecuta : Ejecuta ⟨k, l ++ (programa c).origen (.escuchaRevisa cpu) :: r⟩ cpu pcb := by
      refine ⟨hen, fun hm => ?_⟩
      rw [← List.singleton_append (x := (programa c).origen _), mem_filterMap_medio] at hm
      rcases hm with hm | hm | hm
      · exact hsin.1 hm
      · cases hm
      · exact hsin.2 hm
    refine hI.ejecucion.deja (running_nodup hI) hejecuta hconocida ?_ rfl ?_
    · intro cpu' p
      by_cases heq : cpu' = cpu
      · subst heq
        refine iff_of_false (fun h => h.2 ?_) fun h => h.2 rfl
        dsimp only
        rw [mem_filterMap_medio]
        exact Or.inr (Or.inl List.mem_cons_self)
      · refine (ejecuta_otra rfl heq (fun x hx => by cases hx) ?_).trans (and_iff_left heq).symm
        exact fun x hx => List.mem_singleton.mp hx
    · intro cpu' hne hl
      exact listada_igual id (hrevisa cpu' hne) hl

/-- A CPU whose response is handled is left without a process. -/
theorem ejecucion_suelta (cpu : ℕ) {k' : Kernel} {d : Hilo}
    (hI : Asignados ⟨k, l ++ (programa c).origen a :: r⟩)
    (ho : manejaDe ((programa c).origen a) = some cpu) (hd : manejaDe d = none)
    (hmisma : (k'.cpus cpu).pcbEnEjecucion = none)
    (hotra : ∀ cpu', cpu' ≠ cpu → k'.cpus cpu' = k.cpus cpu')
    (hlista : k'.listaCpus = k.listaCpus) (htotal : k'.totalCpus = k.totalCpus)
    (hcola : k'.colas .running = k.colas .running) : Ejecucion ⟨k', l ++ ([d] ++ r)⟩ := by
  have hoe : [(programa c).origen a].filterMap manejaDe = [cpu] := List.filterMap_cons_some ho
  refine hI.ejecucion.igual ?_ ?_ (fun p => iff_of_eq (congrArg (p ∈ ·) hcola)) ?_
  · intro cpu' p hp
    dsimp only at hp ⊢
    rw [htotal]
    by_cases heq : cpu' = cpu
    · subst heq
      cases hmisma.symm.trans hp
    · rw [hotra cpu' heq] at hp
      exact hI.ejecucion.conocida cpu' p hp
  · intro cpu' p
    by_cases heq : cpu' = cpu
    · subst heq
      refine iff_of_false (fun h => ?_) fun h => h.2 ?_
      · cases hmisma.symm.trans h.1
      · rw [← List.singleton_append (x := (programa c).origen a), mem_filterMap_medio, hoe]
        exact Or.inr (Or.inl List.mem_cons_self)
    · refine ejecuta_otra (by rw [hotra cpu' heq]) heq ?_ ?_
      · rw [hoe]
        exact fun x hx => List.mem_singleton.mp hx
      · rw [List.filterMap_cons_none hd]
        exact fun x hx => by cases hx
  · intro cpu' p _ hl
    refine listada_igual (fun hmem => hlista ▸ hmem) ?_ hl
    intro h
    rw [h] at ho
    cases ho

theorem ejecucion_paso (hI : Asignados ⟨k, l ++ (programa c).origen a :: r⟩)
    (hg : (programa c).guarda k a)
    (hS : NombreNuevo (l.length, a) ⟨k, l ++ (programa c).origen a :: r⟩) :
    Ejecucion ⟨(programa c).efecto k a, l ++ ((programa c).destino k a ++ r)⟩ := by
  cases ha : asigna a with
  | false => exact ejecucion_otra hI ha
  | true =>
    have hconocida : ∀ cpu p, (k.cpus cpu).pcbEnEjecucion = some p → cpu < k.totalCpus :=
      hI.ejecucion.conocida
    cases a with
    | cortoPlanifica => exact ejecucion_planifica hI
    | recibeRespuesta cpu fd pid pc motivo => exact ejecucion_respuesta hI
    | recibeOtro cpu fd =>
      have hhead := of_decide_eq_true hg.2
      exact absurd (List.mem_of_mem_head? hhead) (hI.escuchas.sinOtro fd)
    | escuchaRevisa cpu => exact ejecucion_revisa hI
    | cpuRegistra fd nombre =>
      dsimp only [programa, transicion]
      rw [registrar_nueva fd (hS fd nombre rfl)]
      have hnueva : (k.cpus k.totalCpus).pcbEnEjecucion = none := by
        cases hp : (k.cpus k.totalCpus).pcbEnEjecucion with
        | none => rfl
        | some p => exact absurd (hconocida _ p hp) (lt_irrefl _)
      have hen : ∀ cpu, (Function.update k.cpus k.totalCpus ⟨nombre, some fd, none, true, none⟩
          cpu).pcbEnEjecucion = (k.cpus cpu).pcbEnEjecucion := by
        intro cpu
        by_cases heq : cpu = k.totalCpus
        · subst heq
          rw [Function.update_self, hnueva]
        · rw [Function.update_of_ne heq]
      refine hI.ejecucion.igual ?_ (ejecuta_igual hen rfl) (fun _ => Iff.rfl) ?_
      · intro cpu p hp
        exact (hconocida cpu p ((hen cpu).symm.trans hp)).trans (Nat.lt_succ_self _)
      · intro cpu p _ hl
        exact listada_igual (fun hmem => List.mem_append_left _ hmem) (by intro h; cases h) hl
    | escuchaLibera cpu =>
      refine ejecucion_suelta cpu hI rfl rfl ?_ (fun cpu' hne => ?_) rfl rfl rfl
      · exact (congrArg Cpu.pcbEnEjecucion (Function.update_self cpu _ k.cpus) :)
      · exact Function.update_of_ne hne _ _
    | escuchaFinalizaTomado cpu pcb =>
      refine ejecucion_suelta cpu hI rfl rfl ?_ (fun cpu' hne => ?_) rfl rfl rfl
      · exact (congrArg Cpu.pcbEnEjecucion (Function.update_self cpu _ k.cpus) :)
      · exact Function.update_of_ne hne _ _
    | escuchaQuita cpu =>
      refine hI.ejecucion.igual hconocida (ejecuta_igual (fun _ => rfl) rfl) (fun _ => Iff.rfl) ?_
      intro cpu' p _ hl
      by_cases heq : cpu' = cpu
      · subst heq
        right
        exact List.mem_append_right _ List.mem_cons_self
      · exact listada_igual (fun hmem => (List.mem_erase_of_ne heq).mpr hmem)
          (by intro h; cases h) hl
    | _ => cases ha

theorem asignados_paso (hI : Asignados ⟨k, l ++ (programa c).origen a :: r⟩)
    (hg : (programa c).guarda k a)
    (hS : NombreNuevo (l.length, a) ⟨k, l ++ (programa c).origen a :: r⟩) :
    Asignados ⟨(programa c).efecto k a, l ++ ((programa c).destino k a ++ r)⟩ :=
  ⟨planificador_paso hI.planificador hg.1, escuchas_paso hI.escuchas hg hS, unaVez_paso hI hg.1,
    ejecucion_paso hI hg hS⟩

theorem asignados_inicial (c : ConfigKernel) (path : List Byte) (tamanio : ℤ)
    (absoluto : Option (List Byte)) : Asignados (arranque c path tamanio absoluto) := by
  have hvista := vistaCpus_crearPcb c inicial path tamanio absoluto
  have hsin : ∀ cpu, ((arranque c path tamanio absoluto).comun.cpus cpu).pcbEnEjecucion = none :=
    congrFun (congrArg VistaCpus.enEjecucion hvista)
  have hlibre : peso inicial inicial.ultimoPid = 0 := rfl
  have hcomun : (arranque c path tamanio absoluto).comun =
      crearPcb c inicial path tamanio absoluto := rfl
  have hpeso : ∀ p, peso (arranque c path tamanio absoluto).comun p ≤
      if p = inicial.ultimoPid then 1 else peso inicial p := by
    intro p
    rw [hcomun]
    exact peso_crear c path tamanio absoluto hlibre
  have hcero : ∀ p, peso inicial p = 0 := fun p => rfl
  have hult : (arranque c path tamanio absoluto).comun.ultimoPid = inicial.ultimoPid + 1 :=
    (crear_nuevos (k := inicial) path tamanio absoluto).2.2.1
  have hrun : (arranque c path tamanio absoluto).comun.colas .running = [] := by
    rw [arranque, crearPcb]
    split <;> rfl
  have hunaVez : UnaVez (arranque c path tamanio absoluto) := by
    constructor
    · intro p
      have h := hpeso p
      have hmano : (arranque c path tamanio absoluto).hilos.filterMap enMano = [] := rfl
      rw [hcero] at h
      rw [hmano, List.count_nil, Nat.add_zero]
      refine h.trans ?_
      split
      · exact le_rfl
      · exact Nat.zero_le _
    · intro p hp
      have h := hpeso p
      have hne : p ≠ inicial.ultimoPid := by
        rw [hult] at hp
        omega
      rw [hcero, if_neg hne] at h
      exact Nat.le_zero.mp h
  have hejecucion : Ejecucion (arranque c path tamanio absoluto) := by
    constructor
    · intro cpu p hp
      cases (hsin cpu).symm.trans hp
    · intro cpu p hp
      cases (hsin cpu).symm.trans hp.1
    · intro p hp
      rw [hrun] at hp
      cases hp
    · intro cpu cpu' p hp
      cases (hsin cpu).symm.trans hp.1
  exact ⟨planificador_inicial c path tamanio absoluto, escuchas_inicial c path tamanio absoluto,
    hunaVez, hejecucion⟩

end Pasos

end KernelEjecucion

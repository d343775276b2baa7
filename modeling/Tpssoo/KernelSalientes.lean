import Tpssoo.KernelEjecucion
import Tpssoo.KernelInterrupciones

/-!
# The CPUs that will be free

A CPU will be free when it is idle, while a thread handles its response, and from when an
interrupt is sent to it until the kernel receives the response to it. While no CPU disconnects
and their names are different, only the short-term planner has a CPU stop being so.
-/
namespace KernelSalientes

open EnterosC Protocolo KernelEstado KernelFunciones KernelHilos KernelVistas KernelPcbs
open KernelSaludos KernelConexiones KernelInterrupciones KernelCpus KernelEjecucion Entrelazado

/-- The two connections of a CPU module that reads the second. -/
def conexionesDe : Hilo → Option (ℕ × ℕ)
  | .moduloSaludaInterrupt fd fdInterrupt => some (fd, fdInterrupt)
  | .modulo m => some (m.fdDispatch, m.fdInterrupt)
  | _ => none

def hayInterrupcion (mensajes : List Mensaje) : Bool := mensajes.any fun x =>
  (esInterrupcion x).isSome

/-- An interrupt has been sent to the module and it has ended no burst with it. -/
def avisado (k : Kernel) : Hilo → Bool
  | .moduloSaludaInterrupt _ fdInterrupt => hayInterrupcion (k.enviados (.interrupt fdInterrupt))
  | .modulo m => !m.interrupcionPendiente.isEmpty ||
      hayInterrupcion ((k.enviados (.interrupt m.fdInterrupt)).drop m.leidosInterrupt)
  | _ => false

def esInterrumpida : PaqueteCpu → Bool
  | .respuestaEjecucion _ _ .interrupcion => true
  | _ => false

/-- An interrupt of the CPU of that connection is on its way there, pending, or on its way back. -/
def EnCamino (s : Sistema Kernel Hilo) (fd : ℕ) : Prop :=
  (s.comun.entrantes fd).any esInterrumpida = true ∨
    ∃ h ∈ s.hilos, (conexionesDe h).map Prod.fst = some fd ∧ avisado s.comun h = true

def Saliente (s : Sistema Kernel Hilo) (cpu : ℕ) : Prop :=
  (s.comun.cpus cpu).cpuLibre = true ∨ (∃ h ∈ s.hilos, manejaDe h = some cpu) ∨
    ∃ fd ∈ (s.comun.cpus cpu).socketDispatch, EnCamino s fd

/-- The module of the CPU reads the connection by which the kernel would interrupt it. -/
def Alcanzable (s : Sistema Kernel Hilo) (cpu : ℕ) : Prop :=
  ∃ h ∈ s.hilos, ∃ x ∈ conexionesDe h, (s.comun.cpus cpu).socketDispatch = some x.1 ∧
    (s.comun.cpus cpu).socketInterrupt = some x.2

instance (s : Sistema Kernel Hilo) (fd : ℕ) : Decidable (EnCamino s fd) :=
  inferInstanceAs (Decidable (_ ∨ _))

instance (s : Sistema Kernel Hilo) (cpu : ℕ) : Decidable (Saliente s cpu) :=
  inferInstanceAs (Decidable (_ ∨ _ ∨ _))

instance (s : Sistema Kernel Hilo) (cpu : ℕ) : Decidable (Alcanzable s cpu) :=
  inferInstanceAs (Decidable (∃ h ∈ s.hilos, ∃ x ∈ conexionesDe h, _ ∧ _))

/-- The steps of a CPU that disconnects, and of the thread that listened to it. -/
def desconecta : Accion → Bool
  | .moduloAborta _ _ | .moduloAbortaInterrupt _ _ | .moduloDesconecta _ | .recibeNull _ _
  | .escuchaQuita _ | .escuchaRevisa _ | .escuchaFinalizaTomado _ _ | .escuchaCierra _ => true
  | _ => false

section Cpus

variable {c : ConfigKernel} {k : Kernel} {a : Accion} {cpu n : ℕ} {hilos : List Hilo}

/-- The dispatch connection of a registered CPU stays. -/
theorem socket_sigue (hdes : desconecta a = false) (hS : NombreNuevo (n, a) ⟨k, hilos⟩)
    (hcpu : cpu < k.totalCpus) :
    (((programa c).efecto k a).cpus cpu).socketDispatch = (k.cpus cpu).socketDispatch := by
  cases hto : tocaCpus a with
  | false => exact congrFun (congrArg VistaCpus.socket (vistaCpus_efecto c k hto)) cpu
  | true =>
    cases a with
    | cortoPlanifica =>
      dsimp only [programa, transicion]
      rcases planificar_casos c k with h | h | ⟨pcb, resto, -, -, h⟩ | ⟨pcb, resto, i, d, -, -,
          h⟩ <;> rw [h]
      · rfl
      · rfl
      · rfl
      · dsimp only [despachado]
        by_cases heq : cpu = d
        · subst heq
          rw [Function.update_self]
        · rw [Function.update_of_ne heq]
    | cpuRegistra fd nombre =>
      dsimp only [programa, transicion]
      rw [registrar_nueva fd (hS fd nombre rfl)]
      exact congrArg Cpu.socketDispatch (Function.update_of_ne hcpu.ne _ _)
    | recibeInitProc d fd path tamanio absoluto =>
      have hcrear := (enviados_crearPcb c (recibir k fd) path tamanio absoluto).2
      dsimp only [programa, transicion]
      split
      · rw [Kernel.enviar, hcrear]
        rfl
      · rw [hcrear]
        rfl
    | recibeRespuesta d fd q pc motivo =>
      dsimp only [programa, transicion, recibirRespuesta]
      repeat' split
      all_goals rfl
    | recibeOtro d fd =>
      dsimp only [programa, transicion]
      split <;> rfl
    | escuchaLibera d =>
      dsimp only [programa, transicion, Kernel.postCpuLibre, Kernel.conCpu]
      by_cases heq : cpu = d
      · subst heq
        rw [Function.update_self]
      · rw [Function.update_of_ne heq]
    | escuchaQuita _ | escuchaFinalizaTomado _ _ | escuchaCierra _ => cases hdes
    | _ => first | rfl | cases hto

/-- Only the short-term planner occupies a CPU. -/
theorem libre_sigue (hcorto : a ≠ .cortoPlanifica) (hdes : desconecta a = false)
    (hS : NombreNuevo (n, a) ⟨k, hilos⟩) (hcpu : cpu < k.totalCpus)
    (h : (k.cpus cpu).cpuLibre = true) :
    (((programa c).efecto k a).cpus cpu).cpuLibre = true := by
  cases ha : reasigna a with
  | false => exact ((mismas_efecto ha).libre cpu).trans h
  | true =>
    cases a with
    | cortoPlanifica => exact absurd rfl hcorto
    | cpuRegistra fd nombre =>
      dsimp only [programa, transicion]
      rw [registrar_nueva fd (hS fd nombre rfl)]
      exact (congrArg Cpu.cpuLibre (Function.update_of_ne hcpu.ne _ _)).trans h
    | escuchaLibera d =>
      dsimp only [programa, transicion, Kernel.postCpuLibre, Kernel.conCpu]
      by_cases heq : cpu = d
      · subst heq
        rw [Function.update_self]
      · rwa [Function.update_of_ne heq]
    | escuchaQuita _ | escuchaFinalizaTomado _ _ | escuchaCierra _ => cases hdes
    | _ => cases ha

/-- The thread that handles a response goes on, or releases its CPU. -/
theorem maneja_sigue (hdes : desconecta a = false)
    (h : manejaDe ((programa c).origen a) = some cpu) :
    (∃ d ∈ (programa c).destino k a, manejaDe d = some cpu) ∨ a = .escuchaLibera cpu := by
  cases a with
  | escuchaLibera d =>
    cases h
    exact Or.inr rfl
  | escuchaFinalizaTomado _ _ => cases hdes
  | escuchaBloquea d pcb dispositivo duracion =>
    left
    dsimp only [programa, transicion]
    split
    · exact ⟨_, List.mem_cons_self, h⟩
    · exact ⟨_, List.mem_cons_self, h⟩
  | escuchaAgregaExit _ _ | escuchaCambiaExit _ _ | escuchaEncola _ _ _ _
  | escuchaSinDispositivo _ _ | escuchaBloqueaDump _ _ | escuchaAgregaReady _ _
  | escuchaCambiaReady _ _ | escuchaDesaloja _ _ | escuchaFinaliza _ _
  | escuchaFinalizaAgrega _ _ => exact Or.inl ⟨_, List.mem_cons_self, h⟩
  | _ => cases h

end Cpus

section Paquetes

variable {c : ConfigKernel} {k : Kernel} {a : Accion} {fd : ℕ}

theorem any_recibir {fd' : ℕ} (h : (k.entrantes fd).any esInterrumpida = true)
    (hhead : fd = fd' → ∀ x ∈ (k.entrantes fd).head?, esInterrumpida x = false) :
    ((recibir k fd').entrantes fd).any esInterrumpida = true := by
  rw [recibir]
  dsimp only
  by_cases heq : fd = fd'
  · subst heq
    rw [Function.update_self]
    cases hxs : k.entrantes fd with
    | nil =>
      rw [hxs] at h
      cases h
    | cons x xs =>
      rw [hxs] at h hhead
      rwa [List.any_cons, hhead rfl x rfl, Bool.false_or] at h
  · rwa [Function.update_of_ne heq]

theorem any_entregar {fd' : ℕ} {x : PaqueteCpu} (h : (k.entrantes fd).any esInterrumpida = true) :
    ((entregar k fd' x).entrantes fd).any esInterrumpida = true := by
  rw [entregar]
  dsimp only
  by_cases heq : fd = fd'
  · subst heq
    rw [Function.update_self, List.any_append, h]
    rfl
  · rwa [Function.update_of_ne heq]

/-- The response to an interrupt waits until the kernel receives it. -/
theorem interrumpida_sigue (hg : (programa c).guarda k a)
    (h : (k.entrantes fd).any esInterrumpida = true) :
    (((programa c).efecto k a).entrantes fd).any esInterrumpida = true ∨
      ∃ cpu q pc motivo, a = .recibeRespuesta cpu fd q pc motivo := by
  have hmismas : ((programa c).efecto k a).entrantes = k.entrantes →
      (((programa c).efecto k a).entrantes fd).any esInterrumpida = true := by
    intro heq
    rwa [heq]
  cases hto : tocaCpus a with
  | false => exact Or.inl (hmismas (congrArg VistaCpus.entrantes (vistaCpus_efecto c k hto)))
  | true =>
    cases a with
    | cortoPlanifica =>
      refine Or.inl (hmismas ?_)
      dsimp only [programa, transicion]
      rcases planificar_casos c k with h | h | ⟨pcb, resto, -, -, h⟩ | ⟨pcb, resto, i, d, -, -,
          h⟩ <;> rw [h] <;> rfl
    | cpuRegistra fd' nombre =>
      refine Or.inl (hmismas ?_)
      dsimp only [programa, transicion, registrarCpu]
      split <;> rfl
    | recibeInitProc cpu fd' path tamanio absoluto =>
      left
      have hhead := (Bool.and_eq_true _ _).mp hg.2
      have hcrear := congrArg VistaCpus.entrantes (vistaCpus_crearPcb c
        (recibir k fd') path tamanio absoluto)
      have hany : ((recibir k fd').entrantes fd).any esInterrumpida = true := by
        refine any_recibir h ?_
        rintro rfl x hx
        cases (of_decide_eq_true hhead.2).symm.trans hx
        rfl
      have hent : ((programa c).efecto k (.recibeInitProc cpu fd' path tamanio
          absoluto)).entrantes = (recibir k fd').entrantes := by
        dsimp only [programa, transicion]
        split <;> exact hcrear
      rwa [hent]
    | recibeRespuesta cpu fd' q pc motivo =>
      by_cases hfd : fd = fd'
      · subst hfd
        exact Or.inr ⟨cpu, q, pc, motivo, rfl⟩
      · have hotro : ((recibir k fd').entrantes fd).any esInterrumpida = true :=
          any_recibir h fun heq => absurd heq hfd
        left
        dsimp only [programa, transicion, recibirRespuesta]
        repeat' split
        · exact h
        · exact h
        · exact hotro
        · exact hotro
    | recibeOtro cpu fd' =>
      left
      have hhead := of_decide_eq_true hg.2
      have hany : ((recibir k fd').entrantes fd).any esInterrumpida = true := by
        refine any_recibir h ?_
        rintro rfl x hx
        cases hhead.symm.trans hx
        rfl
      dsimp only [programa, transicion]
      split <;> exact hany
    | moduloInitProc _ _ _ | moduloTermina _ _ _ | moduloFallaFetch _ _ =>
      exact Or.inl (any_entregar h)
    | _ => first | exact Or.inl (hmismas rfl) | cases hto

end Paquetes

section Modulos

variable {c : ConfigKernel} {k k' : Kernel} {a : Accion} {h : Hilo} {fd : ℕ} {ms : List Mensaje}

theorem hayInterrupcion_append (ms' : List Mensaje) (h : hayInterrupcion ms = true) :
    hayInterrupcion (ms ++ ms') = true := by
  rw [hayInterrupcion] at h ⊢
  rw [List.any_append, h]
  rfl

theorem hayInterrupcion_drop {n : ℕ} (ms' : List Mensaje) (h : hayInterrupcion (ms.drop n) = true) :
    hayInterrupcion ((ms ++ ms').drop n) = true := by
  rw [List.drop_append]
  exact hayInterrupcion_append _ h

/-- The interrupt that the kernel sends is not read yet. -/
theorem hayInterrupcion_enviada {n : ℕ} (hn : n ≤ ms.length) (d : Option ℕ) (i : ℕ) :
    hayInterrupcion ((ms ++ [Mensaje.procesoInterrupcion d i]).drop n) = true := by
  rw [List.drop_append_of_le_length hn, hayInterrupcion, List.any_append]
  exact Bool.or_true _

/-- What the kernel sends later changes nothing for a module that has been interrupted. -/
theorem avisado_crece (hcrece : ∀ canal, ∃ ms, k'.enviados canal = k.enviados canal ++ ms)
    (h' : avisado k h = true) : avisado k' h = true := by
  cases h with
  | moduloSaludaInterrupt fd fdInterrupt =>
    obtain ⟨ms, hms⟩ := hcrece (.interrupt fdInterrupt)
    rw [avisado] at h' ⊢
    rw [hms]
    exact hayInterrupcion_append ms h'
  | modulo m =>
    obtain ⟨ms, hms⟩ := hcrece (.interrupt m.fdInterrupt)
    rw [avisado, Bool.or_eq_true] at h' ⊢
    rw [hms]
    exact h'.imp_right (hayInterrupcion_drop ms)
  | _ => cases h'

theorem leer_interrupt (m : ModuloCpu) (ms : List Mensaje) :
    (m.leer ms).fdDispatch = m.fdDispatch ∧ (m.leer ms).fdInterrupt = m.fdInterrupt ∧
      (m.leer ms).leidosInterrupt = m.leidosInterrupt ∧
      (m.leer ms).interrupcionPendiente = m.interrupcionPendiente := by
  rw [ModuloCpu.leer]
  repeat' split
  all_goals exact ⟨rfl, rfl, rfl, rfl⟩

theorem avisado_leer {m : ModuloCpu} (ms : List Mensaje) (h : avisado k (.modulo m) = true) :
    avisado k (.modulo (m.leer ms)) = true := by
  obtain ⟨-, hfd, hleidos, hpend⟩ := leer_interrupt m ms
  rw [avisado] at h ⊢
  rwa [hfd, hleidos, hpend]

/-- What it reads is pending from then on. -/
theorem avisado_interrumpir {m : ModuloCpu} (h : avisado k (.modulo m) = true) :
    avisado k (.modulo (m.interrumpir (k.enviados (.interrupt m.fdInterrupt)))) = true := by
  rw [ModuloCpu.interrumpir]
  cases hget : (k.enviados (.interrupt m.fdInterrupt))[m.leidosInterrupt]? with
  | none => exact h
  | some x =>
    obtain ⟨hlt, hx⟩ := List.getElem?_eq_some_iff.mp hget
    have hdrop := List.drop_eq_getElem_cons hlt
    rw [hx] at hdrop
    simp only [avisado, hdrop, hayInterrupcion, List.any_cons, Bool.or_eq_true,
      Bool.not_eq_true', List.isEmpty_eq_false_iff] at h ⊢
    rcases h with h | h | h
    · exact Or.inl fun hnil => h (List.append_eq_nil_iff.mp hnil).1
    · left
      obtain ⟨y, hy⟩ := Option.isSome_iff_exists.mp h
      rw [hy]
      exact fun hnil => by simpa using (List.append_eq_nil_iff.mp hnil).2
    · exact Or.inr h

/-- The module that takes a step has the interrupt still, or answers it. -/
theorem avisado_sigue (hdes : desconecta a = false) (hg : (programa c).guarda k a)
    (hfd : (conexionesDe ((programa c).origen a)).map Prod.fst = some fd)
    (h : avisado k ((programa c).origen a) = true) :
    (((programa c).efecto k a).entrantes fd).any esInterrumpida = true ∨
      ∃ d ∈ (programa c).destino k a, (conexionesDe d).map Prod.fst = some fd ∧
        avisado ((programa c).efecto k a) d = true := by
  cases a with
  | moduloSaludaInterrupt fd' fdInterrupt =>
    refine Or.inr ⟨_, List.mem_cons_self, hfd, ?_⟩
    have hhead : (k.enviados (.interrupt fdInterrupt)).head? = some .handshakeOk :=
      of_decide_eq_true hg.2
    obtain ⟨resto, hresto⟩ := List.head?_eq_some_iff.mp hhead
    have hlee : hayInterrupcion (k.enviados (.interrupt fdInterrupt)) = true := h
    have hhay : hayInterrupcion resto = true := by
      rw [hresto, hayInterrupcion, List.any_cons] at hlee
      exact hlee
    show avisado k _ = true
    rw [avisado, hresto]
    exact hhay
  | moduloLee m =>
    refine Or.inr ⟨_, List.mem_cons_self, ?_, avisado_leer _ h⟩
    rw [conexionesDe, (leer_interrupt m _).1]
    exact hfd
  | moduloInterrumpe m =>
    refine Or.inr ⟨_, List.mem_cons_self, ?_, avisado_interrumpir h⟩
    rw [ModuloCpu.interrumpir]
    split <;> exact hfd
  | moduloInitProc m path tamanio => exact Or.inr ⟨_, List.mem_cons_self, hfd, h⟩
  | moduloFallaFetch m pc => exact Or.inr ⟨_, List.mem_cons_self, hfd, h⟩
  | moduloTermina m pc motivo =>
    by_cases hpend : m.interrupcionPendiente = []
    · refine Or.inr ⟨_, List.mem_cons_self, hfd, ?_⟩
      have hlee : avisado k (.modulo m) = true := h
      rw [avisado, hpend] at hlee
      exact hlee
    · left
      cases Option.some.inj hfd
      have hmotivo : motivoFinal m motivo = .interrupcion := if_neg hpend
      show ((entregar k m.fdDispatch _).entrantes m.fdDispatch).any esInterrumpida = true
      rw [hmotivo, entregar]
      dsimp only
      rw [Function.update_self, List.any_append]
      exact Bool.or_true _
  | moduloAbortaInterrupt _ _ | moduloDesconecta _ => cases hdes
  | _ => cases hfd

end Modulos

section Pasos

variable {c : ConfigKernel} {k : Kernel} {l r : List Hilo} {a : Accion} {cpu fd : ℕ}

/-- The threads that listen to the CPUs do so on their dispatch connections, and the modules have
read no more than was sent to them. -/
structure Enlaces (s : Sistema Kernel Hilo) : Prop where
  conexiones : Conexiones s
  escuchan : ∀ cpu fd, .escuchaRecibe cpu (some fd) ∈ s.hilos →
    (s.comun.cpus cpu).socketDispatch = some fd
  leidos : ∀ m, .modulo m ∈ s.hilos →
    m.leidosInterrupt ≤ (s.comun.enviados (.interrupt m.fdInterrupt)).length

theorem recibe_destino {x : Option ℕ} (h : .escuchaRecibe cpu x ∈ (programa c).destino k a) :
    x = (k.cpus cpu).socketDispatch ∧ escuchaDe ((programa c).origen a) = some cpu := by
  cases a with
  | cpuResponde fd' d | recibeInitProc d fd' path tamanio absoluto | escuchaLibera d =>
    cases List.mem_singleton.mp h
    exact ⟨rfl, rfl⟩
  | recibeRespuesta d fd' q pc motivo =>
    dsimp only [programa, transicion, trasRespuesta] at h
    repeat' split at h
    all_goals cases motivo <;> simp [segunMotivo] at h
  | _ =>
    dsimp only [programa, transicion, trasDump] at h
    repeat' split at h
    all_goals simp at h

theorem leidos_destino {m : ModuloCpu}
    (hI : ∀ m, .modulo m ∈ l ++ (programa c).origen a :: r →
      m.leidosInterrupt ≤ (k.enviados (.interrupt m.fdInterrupt)).length)
    (hg : (programa c).guarda k a) (hm : .modulo m ∈ (programa c).destino k a) :
    m.leidosInterrupt ≤ (k.enviados (.interrupt m.fdInterrupt)).length := by
  have hmismo : ∀ m₀, (programa c).origen a = .modulo m₀ →
      m.leidosInterrupt = m₀.leidosInterrupt → m.fdInterrupt = m₀.fdInterrupt →
      m.leidosInterrupt ≤ (k.enviados (.interrupt m.fdInterrupt)).length := by
    intro m₀ ho hleidos hfd
    rw [hleidos, hfd]
    exact hI m₀ (ho ▸ List.mem_append_right _ List.mem_cons_self)
  cases hto : tocaModulo a with
  | false =>
    have h := modulo_destino hto _ hm
    cases h
  | true =>
    cases a with
    | moduloSaludaInterrupt fd' fdInterrupt =>
      cases List.mem_singleton.mp hm
      have hhead : (k.enviados (.interrupt fdInterrupt)).head? = some .handshakeOk :=
        of_decide_eq_true hg.2
      obtain ⟨resto, hresto⟩ := List.head?_eq_some_iff.mp hhead
      dsimp only
      rw [hresto]
      exact Nat.succ_le_succ (Nat.zero_le _)
    | moduloLee m₀ =>
      cases List.mem_singleton.mp hm
      obtain ⟨-, hfd, hleidos, -⟩ := leer_interrupt m₀ (k.enviados (.dispatch m₀.fdDispatch))
      exact hmismo m₀ rfl hleidos hfd
    | moduloInterrumpe m₀ =>
      cases List.mem_singleton.mp hm
      have hlt : m₀.leidosInterrupt < (k.enviados (.interrupt m₀.fdInterrupt)).length :=
        of_decide_eq_true hg.2
      rw [ModuloCpu.interrumpir]
      split
      · exact hlt
      · exact hlt.le
    | moduloInitProc m₀ _ _ | moduloTermina m₀ _ _ | moduloFallaFetch m₀ _ =>
      cases List.mem_singleton.mp hm
      exact hmismo m₀ rfl rfl rfl
    | conectaCpu nombre | moduloSaluda fd' nombre =>
      dsimp only [programa, transicion] at hm
      simp at hm
    | _ => cases hto

theorem enlaces_paso (hA : Escuchas ⟨k, l ++ (programa c).origen a :: r⟩)
    (hI : Enlaces ⟨k, l ++ (programa c).origen a :: r⟩) (hg : (programa c).guarda k a)
    (hS : NombreNuevo (l.length, a) ⟨k, l ++ (programa c).origen a :: r⟩)
    (hdes : desconecta a = false) :
    Enlaces ⟨(programa c).efecto k a, l ++ ((programa c).destino k a ++ r)⟩ := by
  refine ⟨conexiones_paso hI.conexiones, ?_, ?_⟩
  · intro cpu fd hmem
    have hantes : .escuchaRecibe cpu (some fd) ∈ l ++ r ∨
        .escuchaRecibe cpu (some fd) ∈ (programa c).destino k a := by
      simp only [List.mem_append] at hmem ⊢
      tauto
    have hsocket : cpu < k.totalCpus ∧ (k.cpus cpu).socketDispatch = some fd := by
      rcases hantes with hmem | hmem
      · have hmem : .escuchaRecibe cpu (some fd) ∈ l ++ (programa c).origen a :: r := by
          simp only [List.mem_append, List.mem_cons] at hmem ⊢
          tauto
        exact ⟨(hA.hilos _ hmem).conocida cpu rfl, hI.escuchan cpu fd hmem⟩
      · obtain ⟨hx, ho⟩ := recibe_destino hmem
        exact ⟨hA.origen.conocida cpu ho, hx.symm⟩
    exact (socket_sigue hdes hS hsocket.1).trans hsocket.2
  · intro m hmem
    have hantes : m.leidosInterrupt ≤ (k.enviados (.interrupt m.fdInterrupt)).length := by
      have hmem : .modulo m ∈ l ++ (programa c).origen a :: r ∨
          .modulo m ∈ (programa c).destino k a := by
        simp only [List.mem_append, List.mem_cons] at hmem ⊢
        tauto
      exact hmem.elim (hI.leidos m) (leidos_destino hI.leidos hg)
    obtain ⟨ms, hms⟩ := prefijo_efecto c k (.interrupt m.fdInterrupt) (a := a)
    dsimp only
    rw [hms, List.length_append]
    exact hantes.trans (Nat.le_add_right _ _)

theorem enlaces_inicial (c : ConfigKernel) (path : List Byte) (tamanio : ℤ)
    (absoluto : Option (List Byte)) : Enlaces (arranque c path tamanio absoluto) := by
  refine ⟨conexiones_inicial c path tamanio absoluto, ?_, ?_⟩
  · intro cpu fd h
    simp [arranque] at h
  · intro m h
    simp [arranque] at h

/-- An interrupt stays on its way until the kernel receives the response to it. -/
theorem enCamino_sigue (hg : (programa c).guarda k a) (hdes : desconecta a = false)
    (h : EnCamino ⟨k, l ++ (programa c).origen a :: r⟩ fd) :
    EnCamino ⟨(programa c).efecto k a, l ++ ((programa c).destino k a ++ r)⟩ fd ∨
      ∃ cpu q pc motivo, a = .recibeRespuesta cpu fd q pc motivo := by
  rcases h with h | ⟨h, hmem, hfd, havisado⟩
  · exact (interrumpida_sigue hg h).imp_left Or.inl
  · left
    by_cases ho : h = (programa c).origen a
    · subst ho
      refine (avisado_sigue hdes hg hfd havisado).imp_right ?_
      rintro ⟨d, hd, hfd', hd'⟩
      exact ⟨d, List.mem_append_right _ (List.mem_append_left _ hd), hfd', hd'⟩
    · refine Or.inr ⟨h, ?_, hfd, avisado_crece (prefijo_efecto c k) havisado⟩
      simp only [List.mem_append, List.mem_cons] at hmem ⊢
      tauto

/-- The thread that receives a response goes on to handle it. -/
theorem maneja_respuesta {q pc : ℤ} {motivo : Motivo}
    (hdef : (recibirRespuesta k c cpu fd q pc motivo).indefinido = false) :
    ∃ d ∈ trasRespuesta k cpu q motivo, manejaDe d = some cpu := by
  rw [recibirRespuesta] at hdef
  rw [trasRespuesta]
  cases hpcb : (k.cpus cpu).pcbEnEjecucion with
  | none =>
    rw [hpcb] at hdef
    cases hdef
  | some pcb =>
    rw [hpcb] at hdef
    dsimp only at hdef ⊢
    cases hp : k.pcbs pcb with
    | none =>
      rw [hp] at hdef
      cases hdef
    | some p =>
      dsimp only
      split
      · exact ⟨_, List.mem_cons_self, rfl⟩
      · refine ⟨_, List.mem_cons_self, ?_⟩
        cases motivo <;> rfl

/-- A CPU that will be free stays so until it is occupied. -/
theorem saliente_sigue (hA : Escuchas ⟨k, l ++ (programa c).origen a :: r⟩)
    (hI : Enlaces ⟨k, l ++ (programa c).origen a :: r⟩) (hg : (programa c).guarda k a)
    (hS : NombreNuevo (l.length, a) ⟨k, l ++ (programa c).origen a :: r⟩)
    (hdes : desconecta a = false)
    (hlibre : (k.cpus cpu).cpuLibre = true → (((programa c).efecto k a).cpus cpu).cpuLibre = true)
    (hdef : ((programa c).efecto k a).indefinido = false) (hcpu : cpu ∈ k.listaCpus)
    (h : Saliente ⟨k, l ++ (programa c).origen a :: r⟩ cpu) :
    Saliente ⟨(programa c).efecto k a, l ++ ((programa c).destino k a ++ r)⟩ cpu := by
  have hlt : cpu < k.totalCpus := (hA.lista.libres cpu hcpu).1
  rcases h with h | ⟨h, hmem, hm⟩ | ⟨fd, hfd, h⟩
  · exact Or.inl (hlibre h)
  · by_cases ho : h = (programa c).origen a
    · subst ho
      rcases maneja_sigue (k := k) hdes hm with ⟨d, hd, hm⟩ | rfl
      · exact Or.inr (Or.inl ⟨d, List.mem_append_right _ (List.mem_append_left _ hd), hm⟩)
      · left
        dsimp only [programa, transicion, Kernel.postCpuLibre, Kernel.conCpu]
        rw [Function.update_self]
    · refine Or.inr (Or.inl ⟨h, ?_, hm⟩)
      simp only [List.mem_append, List.mem_cons] at hmem ⊢
      tauto
  · rcases enCamino_sigue hg hdes h with h | ⟨d, q, pc, motivo, rfl⟩
    · exact Or.inr (Or.inr ⟨fd, (socket_sigue hdes hS hlt).trans hfd, h⟩)
    · have hsocket : (k.cpus d).socketDispatch = some fd :=
        hI.escuchan d fd (List.mem_append_right _ List.mem_cons_self)
      cases hI.conexiones.inyectiva cpu d fd hfd hsocket
      obtain ⟨x, hx, hm⟩ := maneja_respuesta hdef
      exact Or.inr (Or.inl ⟨x, List.mem_append_right _ (List.mem_append_left _ hx), hm⟩)

end Pasos

end KernelSalientes

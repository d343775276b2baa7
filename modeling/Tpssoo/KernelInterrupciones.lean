import Tpssoo.KernelConexiones

/-!
# Interrupts and bursts

An interrupt carries no PID: the CPU keeps it in a flag and the burst that it executes when
it looks at the flag is the one that ends. If each interrupt is taken while the CPU executes
the burst it was sent for, or waits for it, only the process that the kernel chose is
preempted.
-/
namespace KernelInterrupciones

open EnterosC Protocolo KernelEstado KernelFunciones KernelHilos KernelVistas KernelPcbs
open KernelSaludos KernelConexiones Entrelazado Tartamudeo

section Rafagas

def pidDeOpPcb : Mensaje → Option ℤ
  | .opPcb p => some p.pid
  | _ => none

/-- The process of the burst of that number on a connection. -/
def procesoDe (mensajes : List Mensaje) : ℕ → Option ℤ
  | 0 => none
  | n + 1 => (mensajes.filterMap pidDeOpPcb)[n]?

variable {ms ms' : List Mensaje} {n : ℕ} {pid : ℤ}

theorem rafagaDe_eq (ms : List Mensaje) : rafagaDe ms = (ms.filterMap pidDeOpPcb).length := by
  rw [List.length_filterMap_eq_countP, rafagaDe]
  congr 1
  funext m
  cases m <;> rfl

theorem rafagaDe_append (ms ms' : List Mensaje) : rafagaDe (ms ++ ms') =
    rafagaDe ms + rafagaDe ms' :=
  List.countP_append

theorem procesoDe_append (h : procesoDe ms n = some pid) (ms' : List Mensaje) :
    procesoDe (ms ++ ms') n = some pid := by
  cases n with
  | zero => cases h
  | succ n =>
    rw [procesoDe] at h ⊢
    obtain ⟨hlt, -⟩ := List.getElem?_eq_some_iff.mp h
    rw [List.filterMap_append, List.getElem?_append_left hlt, h]

theorem procesoDe_enviado (ms : List Mensaje) (p : Pcb) :
    procesoDe (ms ++ [.opPcb p]) (rafagaDe ms + 1) = some p.pid := by
  rw [procesoDe, rafagaDe_eq, List.filterMap_append, List.getElem?_append_right le_rfl,
    Nat.sub_self]
  rfl

end Rafagas

section Ley

variable (c : ConfigKernel)

/-- The CPU that an action chooses to interrupt. -/
def victimaDe (k : Kernel) : Accion → Option ℕ
  | .largoResuelve pcb _ true => victima c k pcb
  | .escuchaDesaloja _ pcb => victima c k pcb
  | .ioTermina _ _ _ pid => (despertado k pid).bind (victima c k)
  | _ => none

/-- The step sends an interrupt through `fdInterrupt` to preempt `pid`, which the kernel has
in execution at the CPU of `fd` as the `n`-th burst given to it. -/
def Desaloja (pid : ℤ) (fd fdInterrupt n : ℕ) (e : ℕ × Accion) (s : Sistema Kernel Hilo) : Prop :=
  ∃ cpu, victimaDe c s.comun e.2 = some cpu ∧ (s.comun.cpus cpu).pcbEnEjecucion = some pid ∧
    (s.comun.cpus cpu).socketDispatch = some fd ∧
    (s.comun.cpus cpu).socketInterrupt = some fdInterrupt ∧ rafagaActual s.comun cpu = n

/-- Whenever a burst ends because of an interrupt, one was sent to preempt its process during
that burst, and all that are pending were sent for that burst. -/
def InterrupcionesPropias (es : List (ℕ × Accion)) (s₀ s : Sistema Kernel Hilo) : Prop :=
  ∀ i m programCounter motivo,
    Habilitado (programa c) (i, .moduloTermina m programCounter motivo) s →
    motivoFinal m motivo = .interrupcion →
    ∃ n pid, m.rafaga = some (n, pid) ∧
      Desde (paso (programa c)) (Desaloja c pid m.fdDispatch m.fdInterrupt n)
        (fun _ _ => True) es s₀ ∧
      ∀ x ∈ m.interrupcionPendiente, x = (some m.fdDispatch, n)

/-- The burst that a module executes or, when it waits, the next one on its connection. -/
def rafagaEsperada (k : Kernel) (m : ModuloCpu) : ℕ :=
  match m.rafaga with
  | some (n, _) => n
  | none => rafagaDe ((k.enviados (.dispatch m.fdDispatch)).take m.leidos) + 1

/-- A module takes an interrupt while it executes the burst it was sent for, or waits for it,
and leaves no burst by the error path with an interrupt pending. -/
def oportuna (k : Kernel) : Accion → Bool
  | .moduloInterrumpe m =>
    decide (∀ x ∈ ((k.enviados (.interrupt m.fdInterrupt))[m.leidosInterrupt]?).bind esInterrupcion,
      x = (some m.fdDispatch, rafagaEsperada k m))
  | .moduloFallaFetch m _ => m.interrupcionPendiente.isEmpty
  | _ => true

def Oportuna (e : ℕ × Accion) (s : Sistema Kernel Hilo) : Prop := oportuna s.comun e.2 = true

instance (e : ℕ × Accion) (s : Sistema Kernel Hilo) : Decidable (Oportuna e s) :=
  inferInstanceAs (Decidable (_ = true))

end Ley

section Efectos

variable (c : ConfigKernel) (k : Kernel) {a : Accion}

theorem prefijo_efecto (canal : Canal) :
    ∃ ms, ((programa c).efecto k a).enviados canal = k.enviados canal ++ ms := by
  obtain ⟨ms, h, -⟩ := crece_efecto c k a canal
  exact ⟨ms, h⟩

/-- Only the short-term planner starts a burst. -/
theorem rafagas_efecto (ha : a ≠ .cortoPlanifica) (fd : ℕ) :
    (((programa c).efecto k a).enviados (.dispatch fd)).filterMap pidDeOpPcb =
      (k.enviados (.dispatch fd)).filterMap pidDeOpPcb := by
  have henviar : ∀ (k' : Kernel) fd' m, pidDeOpPcb m = none →
      ((k'.enviar (.dispatch fd') m).enviados (.dispatch fd)).filterMap pidDeOpPcb =
        (k'.enviados (.dispatch fd)).filterMap pidDeOpPcb := by
    intro k' fd' m hm
    by_cases h : fd = fd'
    · subst h
      rw [Kernel.enviar_mismo, List.filterMap_append, List.filterMap_cons_none hm,
        List.filterMap_nil,
        List.append_nil]
    · rw [Kernel.enviar_otro _ _ fun heq => h (Canal.dispatch.inj heq)]
  cases hto : tocaCpus a with
  | false =>
    have h : ((programa c).efecto k a).enviados (.dispatch fd) = k.enviados (.dispatch fd) :=
      congrFun (congrArg VistaCpus.enviados (vistaCpus_efecto c k hto)) fd
    rw [h]
  | true =>
    cases a with
    | cortoPlanifica => exact absurd rfl ha
    | cpuResponde fd' cpu => exact henviar k fd' .handshakeOk rfl
    | recibeInitProc cpu fd' path tamanio absoluto =>
      have hcrear := (enviados_crearPcb c (recibir k fd') path tamanio absoluto).1
      dsimp only [programa, transicion]
      split
      · rw [henviar _ _ .initProcesoOk rfl, hcrear]
        rfl
      · rw [hcrear]
        rfl
    | cpuRegistra fd' nombre =>
      dsimp only [programa, transicion, registrarCpu]
      split <;> rfl
    | recibeRespuesta cpu fd' q pc motivo =>
      dsimp only [programa, transicion, recibirRespuesta]
      repeat' split
      all_goals rfl
    | recibeOtro cpu fd' =>
      dsimp only [programa, transicion]
      split <;> rfl
    | _ => first | rfl | cases hto

/-- Only the short-term planner gives a process to a CPU. -/
theorem ejecucion_efecto (ha : a ≠ .cortoPlanifica) {cpu fd : ℕ} {pid : ℤ}
    (hs : (((programa c).efecto k a).cpus cpu).socketDispatch = some fd)
    (hp : (((programa c).efecto k a).cpus cpu).pcbEnEjecucion = some pid) :
    (k.cpus cpu).socketDispatch = some fd ∧ (k.cpus cpu).pcbEnEjecucion = some pid := by
  have hlibera : ∀ d (x : Cpu), ((programa c).efecto k a).cpus = Function.update k.cpus d x →
      x.pcbEnEjecucion = none → (k.cpus cpu).socketDispatch = some fd ∧
        (k.cpus cpu).pcbEnEjecucion = some pid := by
    intro d x heq hx
    rw [heq] at hs hp
    by_cases h : cpu = d
    · subst h
      rw [Function.update_self, hx] at hp
      cases hp
    · rw [Function.update_of_ne h] at hs hp
      exact ⟨hs, hp⟩
  cases hto : tocaCpus a with
  | false =>
    have hvista := vistaCpus_efecto c k hto
    exact ⟨(congrFun (congrArg VistaCpus.socket hvista) cpu).symm.trans hs,
      (congrFun (congrArg VistaCpus.enEjecucion hvista) cpu).symm.trans hp⟩
  | true =>
    cases a with
    | cortoPlanifica => exact absurd rfl ha
    | cpuRegistra fd' nombre =>
      dsimp only [programa, transicion, registrarCpu] at hs hp
      by_cases h : cpu = cpuDe k nombre
      · subst h
        split at hp <;> simp [Kernel.postCpuLibre, Kernel.conCpu] at hp
      · split at hp
        · next hbusca =>
            rw [hbusca] at hs
            simp only [Kernel.postCpuLibre, Kernel.conCpu, Function.update_of_ne h] at hs hp
            exact ⟨hs, hp⟩
        · simp only [Kernel.postCpuLibre, Kernel.conCpu, Function.update_of_ne h] at hp
          by_cases hnueva : cpu = k.totalCpus
          · subst hnueva
            rw [Function.update_self] at hp
            cases hp
          · next hbusca =>
              rw [hbusca] at hs
              simp only [Kernel.postCpuLibre, Kernel.conCpu, Function.update_of_ne h,
                Function.update_of_ne hnueva] at hs hp
              exact ⟨hs, hp⟩
    | recibeInitProc cpu' fd' path tamanio absoluto =>
      have hcrear := (enviados_crearPcb c (recibir k fd') path tamanio absoluto).2
      dsimp only [programa, transicion] at hs hp
      split at hs <;> split at hp
      all_goals
        simp only [Kernel.enviar, hcrear] at hs hp
        exact ⟨hs, hp⟩
    | recibeRespuesta cpu' fd' q pc motivo =>
      have hcpus : (recibirRespuesta k c cpu' fd' q pc motivo).cpus = k.cpus := by
        rw [recibirRespuesta]
        repeat' split
        all_goals rfl
      dsimp only [programa, transicion] at hs hp
      rw [hcpus] at hs hp
      exact ⟨hs, hp⟩
    | recibeOtro cpu' fd' =>
      dsimp only [programa, transicion] at hs hp
      split at hs <;> split at hp <;> exact ⟨hs, hp⟩
    | escuchaLibera d => exact hlibera d _ rfl rfl
    | escuchaFinalizaTomado d pcb => exact hlibera d _ rfl rfl
    | escuchaCierra d =>
      by_cases h : cpu = d
      · subst h
        dsimp only [programa, transicion] at hs
        rw [Kernel.conCpu_misma] at hs
        cases hs
      · dsimp only [programa, transicion] at hs hp
        rw [Kernel.conCpu_otra _ _ h] at hs hp
        exact ⟨hs, hp⟩
    | _ => first | exact ⟨hs, hp⟩ | cases hto

variable {c k} in
/-- The victim is a busy CPU of the list. -/
theorem victima_casos {pcb : ℤ} {cpu : ℕ} (h : victima c k pcb = some cpu) :
    cpu ∈ k.listaCpus ∧ (k.cpus cpu).cpuLibre = false ∧ ∃ pid, (k.cpus cpu).pcbEnEjecucion =
      some pid := by
  have hbusca : ∀ est (cs : List ℕ) v w, buscarVictima k est cs v = some (some w) →
      v = some w ∨ w.1 ∈ cs ∧ (k.cpus w.1).cpuLibre = false ∧
        ∃ pid, (k.cpus w.1).pcbEnEjecucion = some pid := by
    intro est cs
    induction cs with
    | nil => exact fun v w h => Or.inl (Option.some.inj h)
    | cons d cs ih =>
      intro v w h
      have hsigue : ∀ v', buscarVictima k est cs v' = some (some w) → v' = some w ∨
          w.1 ∈ d :: cs ∧ (k.cpus w.1).cpuLibre = false ∧
            ∃ pid, (k.cpus w.1).pcbEnEjecucion = some pid := fun v' h' =>
        (ih v' w h').imp_right fun h' => ⟨List.mem_cons_of_mem _ h'.1, h'.2⟩
      rw [buscarVictima] at h
      split at h
      · exact hsigue v h
      next hlibre =>
      split at h
      · exact hsigue v h
      next pcb hpcb =>
      split at h
      · cases h
      dsimp only at h
      split at h
      · rcases hsigue _ h with h' | h'
        · cases h'
          exact Or.inr ⟨List.mem_cons_self, by simpa using hlibre, pcb, hpcb⟩
        · exact Or.inr h'
      · exact hsigue v h
  rw [victima] at h
  split at h
  · obtain ⟨p, -, h⟩ := Option.bind_eq_some_iff.mp h
    obtain ⟨w, hw, rfl⟩ := Option.map_eq_some_iff.mp h
    cases hb : buscarVictima k p.estimacionRafaga k.listaCpus none with
    | none =>
      rw [hb] at hw
      cases hw
    | some v =>
      rw [hb, Option.getD_some] at hw
      subst hw
      exact (hbusca _ _ _ _ hb).resolve_left fun h => by cases h
  · cases h

theorem interrumpe_desalojar {pcb : ℤ} {fd : ℕ} {m : Mensaje}
    (h : m ∈ (desalojarSiEsNecesarioSrt c k pcb).enviados (.interrupt fd)) :
    m ∈ k.enviados (.interrupt fd) ∨ ∃ cpu, victima c k pcb = some cpu ∧
      (k.cpus cpu).socketInterrupt = some fd ∧
      m = .procesoInterrupcion (k.cpus cpu).socketDispatch (rafagaActual k cpu) := by
  rw [desalojarSiEsNecesarioSrt] at h
  rw [victima]
  split at h
  · next halg =>
      rw [if_pos halg]
      cases hp : k.pcbs pcb with
      | none =>
        rw [hp] at h
        exact Or.inl h
      | some p =>
        rw [hp] at h
        dsimp only [Option.bind_some] at h ⊢
        generalize buscarVictima k p.estimacionRafaga k.listaCpus none = hallada at h ⊢
        rcases hallada with _ | _ | v
        · exact Or.inl h
        · exact Or.inl h
        · dsimp only [enviarInterrupcionACpu] at h
          split at h
          · next fd' hfd' =>
              by_cases heq : fd = fd'
              · subst heq
                rw [Kernel.enviar_mismo] at h
                rcases List.mem_append.mp h with h | h
                · exact Or.inl h
                · exact Or.inr ⟨v.1, rfl, hfd', List.mem_singleton.mp h⟩
              · rw [Kernel.enviar_otro _ _ fun h => heq (Canal.interrupt.inj h)] at h
                exact Or.inl h
          · exact Or.inl h
  · exact Or.inl h

/-- All that goes out through an interrupt connection. -/
theorem interrumpe_efecto {fd : ℕ} {m : Mensaje}
    (h : m ∈ ((programa c).efecto k a).enviados (.interrupt fd)) :
    m ∈ k.enviados (.interrupt fd) ∨ m = .handshakeOk ∨ ∃ cpu, victimaDe c k a = some cpu ∧
      (k.cpus cpu).socketInterrupt = some fd ∧
      m = .procesoInterrupcion (k.cpus cpu).socketDispatch (rafagaActual k cpu) := by
  -- a process that reaches READY, in a state that looks the same to the search
  have htras : ∀ (k' : Kernel) pcb,
      m ∈ (desalojarSiEsNecesarioSrt c k' pcb).enviados (.interrupt fd) → k'.cpus = k.cpus →
      k'.reloj = k.reloj → k'.listaCpus = k.listaCpus → k'.enviados = k.enviados →
      k'.pcbs = (k.cambiarEstado pcb .ready).pcbs →
      m ∈ k.enviados (.interrupt fd) ∨ ∃ cpu, victima c k pcb = some cpu ∧
        (k.cpus cpu).socketInterrupt = some fd ∧
        m = .procesoInterrupcion (k.cpus cpu).socketDispatch (rafagaActual k cpu) := by
    intro k' pcb h hcpus hreloj hlista henv hpcbs
    have hraf : rafagaActual k' = rafagaActual k := by
      funext cpu
      rw [rafagaActual, rafagaActual, hcpus, henv]
    have h' := interrumpe_desalojar c k' h
    rwa [henv, victima_cambiarEstado .ready pcb pcb hcpus hreloj hlista hpcbs, hcpus, hraf] at h'
  obtain ⟨ms, hms, hcanal⟩ := crece_efecto c k a (.interrupt fd)
  by_cases hvacio : ms = []
  · rw [hms, hvacio, List.append_nil] at h
    exact Or.inl h
  have hcanal := hcanal hvacio
  cases a with
  | interruptResponde fd' =>
    by_cases heq : fd = fd'
    · subst heq
      dsimp only [programa, transicion] at h
      rw [Kernel.enviar_mismo] at h
      exact (List.mem_append.mp h).imp_right fun h => Or.inl (List.mem_singleton.mp h)
    · dsimp only [programa, transicion] at h
      rw [Kernel.enviar_otro _ _ fun h => heq (Canal.interrupt.inj h)] at h
      exact Or.inl h
  | escuchaDesaloja cpu pcb => exact (interrumpe_desalojar c k h).imp_right Or.inr
  | largoResuelve pcb susp ok =>
    cases ok with
    | false => exact Or.inl h
    | true =>
      have h' : m ∈ (admitir c k pcb susp).enviados (.interrupt fd) := h
      rw [admitir] at h'
      exact (htras _ pcb h' rfl rfl rfl rfl rfl).imp_right Or.inr
  | ioTermina fd' nombre terminadas pid =>
    have hguardar : ∀ k' r, (guardarGrupo k' r).enviados (.interrupt fd) =
        k'.enviados (.interrupt fd) := fun k' r => enviarPedidos_otro _ _ _ fun _ => by simp
    dsimp only [programa, transicion, manejarFinIo] at h
    split at h
    · exact Or.inl h
    rw [hguardar, despertarDeIo] at h
    rw [victimaDe, despertado]
    generalize buscarPcbPorPid k pid = hallado at h ⊢
    rcases hallado with _ | _ | pcb
    · exact Or.inl h
    · exact Or.inl h
    · dsimp only at h ⊢
      split at h
      · next hest =>
          rw [if_pos hest]
          exact (htras _ pcb h rfl rfl rfl rfl rfl).imp_right Or.inr
      · split at h <;> exact Or.inl h
  | cortoPlanifica =>
    simp only [avisos, respuesta, List.append_nil, Option.mem_toList] at hcanal
    obtain ⟨cpu, -, hcpu⟩ := Option.bind_eq_some_iff.mp hcanal
    obtain ⟨fd', -, hfd'⟩ := Option.map_eq_some_iff.mp hcpu
    cases hfd'
  | recibeInitProc cpu fd' path tamanio absoluto =>
    simp [avisos, respuesta, aDispatch] at hcanal
  | _ => simp [avisos, respuesta] at hcanal

end Efectos

section Invariante

variable {c : ConfigKernel} {s₀ s s₁ s₂ : Sistema Kernel Hilo} {es : List (ℕ × Accion)}
  {e : ℕ × Accion}

/-- What a module knows of its two connections. -/
structure Atento (k : Kernel) (m : ModuloCpu) : Prop where
  leidos : m.leidos ≤ (k.enviados (.dispatch m.fdDispatch)).length
  espera : m.esperaInit = true → m.rafaga.isSome
  rafaga : ∀ n pid, m.rafaga = some (n, pid) →
    procesoDe (k.enviados (.dispatch m.fdDispatch)) n = some pid
  recibidas : ∀ x ∈ m.interrupcionPendiente,
    .procesoInterrupcion x.1 x.2 ∈ k.enviados (.interrupt m.fdInterrupt)
  propias : ∀ x ∈ m.interrupcionPendiente, x = (some m.fdDispatch, rafagaEsperada k m)

/-- What holds of the bursts, the interrupts and the modules after a run. -/
structure Rafagas (c : ConfigKernel) (s₀ : Sistema Kernel Hilo) (es : List (ℕ × Accion))
    (s : Sistema Kernel Hilo) : Prop where
  conexiones : Conexiones s
  pids : ∀ q p, s.comun.pcbs q = some p → p.pid = q
  ultima : ∀ cpu fd pid, (s.comun.cpus cpu).socketDispatch = some fd →
    (s.comun.cpus cpu).pcbEnEjecucion = some pid →
    procesoDe (s.comun.enviados (.dispatch fd))
      (rafagaDe (s.comun.enviados (.dispatch fd))) = some pid
  avisos : ∀ fdI fd n, .procesoInterrupcion (some fd) n ∈ s.comun.enviados (.interrupt fdI) →
    ∃ pid, procesoDe (s.comun.enviados (.dispatch fd)) n = some pid ∧
      Desde (paso (programa c)) (Desaloja c pid fd fdI n) (fun _ _ => True) es s₀
  saludadas : ∀ fd fdI, .moduloSaludaInterrupt fd fdI ∈ s.hilos →
    s.comun.enviados (.dispatch fd) ≠ []
  modulos : ∀ m, .modulo m ∈ s.hilos → Atento s.comun m

theorem pids_paso (hI : ∀ q p, s₁.comun.pcbs q = some p → p.pid = q)
    (hp : paso (programa c) e s₁ = some s₂) : ∀ q p, s₂.comun.pcbs q = some p → p.pid = q := by
  intro q p hq
  have hcambio : Cambio (∃ ok, e.2 = .gestorLibera q ok) (vistaPcbs s₁.comun)
      (vistaPcbs s₂.comun) q := by
    rw [paso_comun hp]
    exact cambio_efecto c s₁.comun e.2
  rcases hcambio with ⟨-, h⟩ | ⟨-, h, h', hm⟩ | ⟨-, -, h', hpid, -, -⟩ | ⟨-, -, h⟩
  · exact hI q p (h.symm.trans hq)
  · cases hq.symm.trans h'
    exact hm.pid.trans (hI q _ h)
  · cases hq.symm.trans h'
    exact hpid
  · cases hq.symm.trans h

/-- The burst that a CPU executes is the last that it was given. -/
theorem ultima_paso (hI : Rafagas c s₀ es s₁) (hp : paso (programa c) e s₁ = some s₂)
    (hdef : s₂.comun.indefinido = false) {cpu fd : ℕ} {pid : ℤ}
    (hs : (s₂.comun.cpus cpu).socketDispatch = some fd)
    (hpcb : (s₂.comun.cpus cpu).pcbEnEjecucion = some pid) :
    procesoDe (s₂.comun.enviados (.dispatch fd)) (rafagaDe (s₂.comun.enviados (.dispatch fd))) =
      some pid := by
  have hcomun := paso_comun hp
  by_cases ha : e.2 = .cortoPlanifica
  · rw [ha] at hcomun
    dsimp only [programa, transicion] at hcomun
    rcases planificar_casos c s₁.comun with h | h | ⟨pcb, resto, -, -, h⟩ | ⟨pcb, resto, i,
        d, -, -, h⟩ <;>
      rw [h] at hcomun <;> rw [hcomun] at hs hpcb hdef ⊢
    · exact hI.ultima cpu fd pid hs hpcb
    · exact hI.ultima cpu fd pid hs hpcb
    · exact hI.ultima cpu fd pid hs hpcb
    · dsimp only [despachado] at hs hpcb hdef ⊢
      obtain ⟨p, hpcb'⟩ : ∃ p, s₁.comun.pcbs pcb = some p := by
        rw [Bool.or_eq_false_iff, Option.isNone_eq_false_iff] at hdef
        exact Option.isSome_iff_exists.mp hdef.2
      by_cases hcpu : cpu = d
      · subst hcpu
        rw [Function.update_self] at hs hpcb
        cases hpcb
        have hpid : p.pid = pid := hI.pids pid p hpcb'
        rw [hpcb', hs]
        dsimp only
        rw [Function.update_self, rafagaDe_append]
        refine (procesoDe_enviado _ _).trans ?_
        rw [(mudanza_cambiarEstado _ _ p).pid, hpid]
      · rw [Function.update_of_ne hcpu] at hs hpcb
        have hotro := hI.ultima cpu fd pid hs hpcb
        rw [hpcb']
        cases hd : (s₁.comun.cpus d).socketDispatch with
        | none => exact hotro
        | some fd' =>
          have hne : Canal.dispatch fd ≠ .dispatch fd' := by
            intro heq
            cases heq
            exact hcpu (hI.conexiones.inyectiva cpu d fd hs hd)
          dsimp only
          rw [Function.update_of_ne hne]
          exact hotro
  · rw [hcomun] at hs hpcb ⊢
    obtain ⟨hs', hpcb'⟩ := ejecucion_efecto c s₁.comun ha hs hpcb
    have h := hI.ultima cpu fd pid hs' hpcb'
    obtain ⟨ms, hms⟩ := prefijo_efecto c s₁.comun (.dispatch fd) (a := e.2)
    have hraf : rafagaDe (((programa c).efecto s₁.comun e.2).enviados (.dispatch fd)) =
        rafagaDe (s₁.comun.enviados (.dispatch fd)) := by
      rw [rafagaDe_eq, rafagaDe_eq, rafagas_efecto c s₁.comun ha]
    rw [hraf, hms]
    exact procesoDe_append h ms

theorem avisos_paso (hrun : correr (paso (programa c)) es s₀ = some s₁) (hI : Rafagas c s₀ es s₁)
    (hp : paso (programa c) e s₁ = some s₂) {fdI fd n : ℕ}
    (hm : .procesoInterrupcion (some fd) n ∈ s₂.comun.enviados (.interrupt fdI)) :
    ∃ pid, procesoDe (s₂.comun.enviados (.dispatch fd)) n = some pid ∧
      Desde (paso (programa c)) (Desaloja c pid fd fdI n) (fun _ _ => True) (es ++ [e]) s₀ := by
  have hcomun := paso_comun hp
  obtain ⟨ms, hms⟩ := prefijo_efecto c s₁.comun (.dispatch fd) (a := e.2)
  rw [hcomun] at hm ⊢
  rw [hms]
  rcases interrumpe_efecto c s₁.comun hm with hm | hm | ⟨cpu, hcpu, hint, hm⟩
  · obtain ⟨pid, hpid, hdesde⟩ := hI.avisos fdI fd n hm
    exact ⟨pid, procesoDe_append hpid ms, hdesde.sigue hrun trivial⟩
  · cases hm
  · obtain ⟨hdispatch, hn⟩ := Mensaje.procesoInterrupcion.inj hm
    have hocupada : ∃ pid, (s₁.comun.cpus cpu).pcbEnEjecucion = some pid := by
      cases ha : e.2 with
      | largoResuelve pcb susp ok =>
        rw [ha] at hcpu
        cases ok with
        | false => cases hcpu
        | true => exact (victima_casos hcpu).2.2
      | escuchaDesaloja d pcb =>
        rw [ha] at hcpu
        exact (victima_casos hcpu).2.2
      | ioTermina fd' nombre terminadas q =>
        rw [ha] at hcpu
        obtain ⟨pcb, -, hcpu⟩ := Option.bind_eq_some_iff.mp hcpu
        exact (victima_casos hcpu).2.2
      | _ =>
        rw [ha] at hcpu
        cases hcpu
    obtain ⟨pid, hpid⟩ := hocupada
    have hultima := hI.ultima cpu fd pid hdispatch.symm hpid
    have hn' : n = rafagaDe (s₁.comun.enviados (.dispatch fd)) := by
      rw [hn, rafagaActual, ← hdispatch]
    refine ⟨pid, procesoDe_append (hn' ▸ hultima) ms, Desde.aqui hrun ?_ hp⟩
    exact ⟨cpu, hcpu, hpid, hdispatch.symm, hint, hn.symm⟩

end Invariante

section Modulos

variable {c : ConfigKernel} {k k' : Kernel} {m : ModuloCpu} {a : Accion}

/-- What goes through a connection later changes nothing for a module. -/
theorem Atento.sigue (h : Atento k m)
    (hcrece : ∀ canal, ∃ ms, k'.enviados canal = k.enviados canal ++ ms) : Atento k' m := by
  obtain ⟨ms, hms⟩ := hcrece (.dispatch m.fdDispatch)
  obtain ⟨ms', hms'⟩ := hcrece (.interrupt m.fdInterrupt)
  have hespera : rafagaEsperada k' m = rafagaEsperada k m := by
    rw [rafagaEsperada, rafagaEsperada, hms, List.take_append_of_le_length h.leidos]
  constructor
  · rw [hms, List.length_append]
    exact h.leidos.trans (Nat.le_add_right _ _)
  · exact h.espera
  · intro n pid hraf
    rw [hms]
    exact procesoDe_append (h.rafaga n pid hraf) ms
  · intro x hx
    rw [hms']
    exact List.mem_append_left _ (h.recibidas x hx)
  · intro x hx
    rw [hespera]
    exact h.propias x hx

theorem atento_leer (h : Atento k m)
    (hguarda : m.leidos < (k.enviados (.dispatch m.fdDispatch)).length ∧
      (m.rafaga = none ∨ m.esperaInit = true)) :
    Atento k (m.leer (k.enviados (.dispatch m.fdDispatch))) := by
  obtain ⟨hlt, hraf⟩ := hguarda
  have htake : (k.enviados (.dispatch m.fdDispatch)).take (m.leidos + 1) =
      (k.enviados (.dispatch m.fdDispatch)).take m.leidos ++
        [(k.enviados (.dispatch m.fdDispatch))[m.leidos]] := List.take_succ_eq_append_getElem hlt
  have hget := List.getElem?_eq_getElem hlt
  generalize (k.enviados (.dispatch m.fdDispatch))[m.leidos] = x at htake hget
  -- the burst that was under way, or awaited, stays the same
  have hmisma : ∀ m', m'.fdDispatch = m.fdDispatch → m'.fdInterrupt = m.fdInterrupt →
      m'.leidos = m.leidos + 1 → m'.rafaga = m.rafaga → m'.esperaInit = false →
      m'.interrupcionPendiente = m.interrupcionPendiente →
      (m.rafaga = none → pidDeOpPcb x = none) → Atento k m' := by
    intro m' hfd hint hleidos hrafaga hesp hpend hx
    have hespera : rafagaEsperada k m' = rafagaEsperada k m := by
      rw [rafagaEsperada, rafagaEsperada, hrafaga, hfd, hleidos, htake, rafagaDe_append]
      cases hr : m.rafaga with
      | some x => rfl
      | none =>
        have hcero : rafagaDe [x] = 0 := by
          rw [rafagaDe_eq, List.filterMap_cons_none (hx hr)]
          rfl
        rw [hcero]
    constructor
    · rw [hfd, hleidos]
      exact hlt
    · intro h'
      rw [hesp] at h'
      cases h'
    · rw [hfd, hrafaga]
      exact h.rafaga
    · rw [hpend, hint]
      exact h.recibidas
    · rw [hpend, hfd, hespera]
      exact h.propias
  rw [ModuloCpu.leer, hget]
  cases x with
  | opPcb p =>
    dsimp only
    split
    · next hesp =>
        refine hmisma _ rfl rfl rfl rfl rfl rfl fun hno => ?_
        have hsi := h.espera hesp
        rw [hno] at hsi
        cases hsi
    · next hesp =>
        have hno : m.rafaga = none := hraf.resolve_right hesp
        have hnum : rafagaDe ((k.enviados (.dispatch m.fdDispatch)).take (m.leidos + 1)) =
            rafagaEsperada k m := by
          rw [rafagaEsperada, hno, htake, rafagaDe_append]
          rfl
        constructor
        · exact hlt
        · exact fun _ => rfl
        · intro n pid hn
          obtain ⟨rfl, rfl⟩ := Prod.mk.inj (Option.some.inj hn)
          have hult := procesoDe_enviado ((k.enviados (.dispatch m.fdDispatch)).take m.leidos) p
          have hprefijo := procesoDe_append hult
            ((k.enviados (.dispatch m.fdDispatch)).drop (m.leidos + 1))
          rw [← htake, List.take_append_drop] at hprefijo
          rw [htake, rafagaDe_append]
          exact hprefijo
        · exact h.recibidas
        · intro x hx
          rw [h.propias x hx, ← hnum]
          rfl
  | handshakeOk | initProcesoOk | procesoInterrupcion _ _ | io _ _ =>
    exact hmisma _ rfl rfl rfl rfl rfl rfl fun _ => rfl

theorem atento_interrumpir (h : Atento k m)
    (hop : ∀ x ∈ ((k.enviados (.interrupt m.fdInterrupt))[m.leidosInterrupt]?).bind esInterrupcion,
      x = (some m.fdDispatch, rafagaEsperada k m)) :
    Atento k (m.interrumpir (k.enviados (.interrupt m.fdInterrupt))) := by
  rw [ModuloCpu.interrumpir]
  cases hget : (k.enviados (.interrupt m.fdInterrupt))[m.leidosInterrupt]? with
  | none => exact h
  | some msg =>
    rw [hget, Option.bind_some] at hop
    have hesp : rafagaEsperada k { m with
        leidosInterrupt := m.leidosInterrupt + 1
        interrupcionPendiente := m.interrupcionPendiente ++ (esInterrupcion msg).toList } =
      rafagaEsperada k m := rfl
    refine ⟨h.leidos, h.espera, h.rafaga, fun x hx => ?_, fun x hx => ?_⟩
    · rcases List.mem_append.mp hx with hx | hx
      · exact h.recibidas x hx
      · have hmsg : msg = .procesoInterrupcion x.1 x.2 := by
          cases msg with
          | procesoInterrupcion d n =>
            cases List.mem_singleton.mp hx
            rfl
          | _ => cases hx
        rw [← hmsg]
        exact List.mem_of_getElem? hget
    · rw [hesp]
      rcases List.mem_append.mp hx with hx | hx
      · exact h.propias x hx
      · exact hop x (Option.mem_toList.mp hx)

/-- The actions that leave a module somewhere. -/
def tocaModulo : Accion → Bool
  | .conectaCpu _ | .moduloSaluda _ _ | .moduloSaludaInterrupt _ _ | .moduloLee _
  | .moduloInterrumpe _ | .moduloInitProc _ _ _ | .moduloTermina _ _ _
  | .moduloFallaFetch _ _ => true
  | _ => false

theorem modulo_destino (ha : tocaModulo a = false) : ∀ h ∈ (programa c).destino k a, moduloDe h =
    none := by
  cases a with
  | conectaCpu _ | moduloSaluda _ _ | moduloSaludaInterrupt _ _ | moduloLee _
  | moduloInterrumpe _ | moduloInitProc _ _ _ | moduloTermina _ _ _ | moduloFallaFetch _ _ =>
    cases ha
  | recibeRespuesta cpu fd q pc motivo =>
    dsimp only [programa, transicion, trasRespuesta]
    repeat' split
    all_goals cases motivo <;> simp [segunMotivo, moduloDe]
  | _ =>
    dsimp only [programa, transicion, trasDump]
    repeat' split
    all_goals simp [moduloDe]

/-- Where a module comes from, given that those that were there are attentive. -/
theorem atento_destino {l r : List Hilo}
    (hmod : ∀ m, .modulo m ∈ l ++ (programa c).origen a :: r → Atento k m)
    (hsal : ∀ fd fdI, .moduloSaludaInterrupt fd fdI ∈ l ++ (programa c).origen a :: r →
      k.enviados (.dispatch fd) ≠ [])
    (hguarda : (programa c).guarda k a)
    (hop : Oportuna (l.length, a) ⟨k, l ++ (programa c).origen a :: r⟩)
    (hm : .modulo m ∈ (programa c).destino k a) : Atento k m := by
  cases hto : tocaModulo a with
  | false =>
    have h := modulo_destino hto _ hm
    cases h
  | true =>
    cases a with
    | moduloSaludaInterrupt fd fdI =>
      cases List.mem_singleton.mp hm
      have hne := hsal fd fdI (List.mem_append_right _ List.mem_cons_self)
      refine ⟨List.length_pos_iff.mpr hne, ?_, ?_, ?_, ?_⟩
      all_goals
        intros
        contradiction
    | moduloLee m₀ =>
      cases List.mem_singleton.mp hm
      refine atento_leer (hmod m₀ (List.mem_append_right _ List.mem_cons_self)) ?_
      have h := hguarda.2
      dsimp only [transicion] at h
      simp only [Bool.and_eq_true, decide_eq_true_eq, Bool.or_eq_true,
        Option.isNone_iff_eq_none] at h
      exact h
    | moduloInterrumpe m₀ =>
      cases List.mem_singleton.mp hm
      exact atento_interrumpir (hmod m₀ (List.mem_append_right _ List.mem_cons_self))
        (of_decide_eq_true hop)
    | moduloInitProc m₀ path tamanio =>
      cases List.mem_singleton.mp hm
      have h := hmod m₀ (List.mem_append_right _ List.mem_cons_self)
      have hraf := hguarda.2
      dsimp only [transicion] at hraf
      simp only [Bool.and_eq_true] at hraf
      exact ⟨h.leidos, fun _ => hraf.1, h.rafaga, h.recibidas, h.propias⟩
    | moduloTermina m₀ pc motivo =>
      cases List.mem_singleton.mp hm
      have h := hmod m₀ (List.mem_append_right _ List.mem_cons_self)
      have hraf := hguarda.2
      dsimp only [transicion] at hraf
      simp only [Bool.and_eq_true, Bool.not_eq_true'] at hraf
      refine ⟨h.leidos, fun hesp => ?_, fun n pid h => ?_, fun x hx => ?_, fun x hx => ?_⟩
      · rw [hraf.1.2] at hesp
        cases hesp
      · cases h
      · cases hx
      · cases hx
    | moduloFallaFetch m₀ pc =>
      cases List.mem_singleton.mp hm
      have h := hmod m₀ (List.mem_append_right _ List.mem_cons_self)
      have hraf := hguarda.2
      dsimp only [transicion] at hraf
      simp only [Bool.and_eq_true, Bool.not_eq_true'] at hraf
      have hvacia : m₀.interrupcionPendiente = [] := List.isEmpty_iff.mp hop
      refine ⟨h.leidos, fun hesp => ?_, fun n pid h => ?_, h.recibidas, fun x hx => ?_⟩
      · rw [hraf.2] at hesp
        cases hesp
      · cases h
      · rw [hvacia] at hx
        cases hx
    | conectaCpu nombre | moduloSaluda fd nombre =>
      dsimp only [programa, transicion] at hm
      simp at hm
    | _ => cases hto

end Modulos

section Corridas

variable {c : ConfigKernel} {s₀ s₁ s₂ : Sistema Kernel Hilo} {es : List (ℕ × Accion)}
  {e : ℕ × Accion}

theorem saluda_destino {k : Kernel} {a : Accion} {fd fdI : ℕ}
    (h : .moduloSaludaInterrupt fd fdI ∈ (programa c).destino k a) :
    ∃ nombre, a = .moduloSaluda fd nombre := by
  cases hto : tocaModulo a with
  | false =>
    have h := modulo_destino hto _ h
    cases h
  | true =>
    cases a with
    | moduloSaluda fd' nombre =>
      rcases List.mem_cons.mp h with h | h
      · cases h
        exact ⟨nombre, rfl⟩
      · cases List.mem_singleton.mp h
    | conectaCpu _ | moduloSaludaInterrupt _ _ | moduloLee _ | moduloInterrumpe _
    | moduloInitProc _ _ _ | moduloTermina _ _ _ | moduloFallaFetch _ _ =>
      dsimp only [programa, transicion] at h
      simp at h
    | _ => cases hto

theorem rafagas_paso (hrun : correr (paso (programa c)) es s₀ = some s₁) (hI : Rafagas c s₀ es s₁)
    (hC : Oportuna e s₁) (hp : paso (programa c) e s₁ = some s₂)
    (hdef : s₂.comun.indefinido = false) : Rafagas c s₀ (es ++ [e]) s₂ := by
  obtain ⟨l, r, hhilos, hl, hguarda, rfl⟩ := paso_casos hp
  obtain ⟨k, hs⟩ := s₁
  obtain ⟨i, a⟩ := e
  cases hhilos
  cases hl
  have hcrece : ∀ canal, ∃ ms, ((programa c).efecto k a).enviados canal = k.enviados canal ++ ms :=
    prefijo_efecto c k
  constructor
  · exact conexiones_paso hI.conexiones
  · exact pids_paso hI.pids hp
  · exact fun cpu fd pid => ultima_paso hI hp hdef
  · exact fun fdI fd n => avisos_paso hrun hI hp
  · intro fd fdI hmem
    have hantes : k.enviados (.dispatch fd) ≠ [] := by
      rcases paso_hilos hp hmem with hmem | hmem
      · exact hI.saludadas fd fdI hmem
      · obtain ⟨nombre, ha⟩ := saluda_destino hmem
        cases ha
        intro hvacio
        have h := hguarda.2
        dsimp only [transicion] at h
        rw [hvacio] at h
        cases h
    obtain ⟨ms, hms⟩ := hcrece (.dispatch fd)
    show ((programa c).efecto k a).enviados (.dispatch fd) ≠ []
    rw [hms]
    exact fun h => hantes (List.append_eq_nil_iff.mp h).1
  · intro m hmem
    refine Atento.sigue ?_ hcrece
    rcases paso_hilos hp hmem with hmem | hmem
    · exact hI.modulos m hmem
    · exact atento_destino hI.modulos hI.saludadas hguarda hC hmem

variable (c) (path : List Byte) (tamanio : ℤ) (absoluto : Option (List Byte))

theorem rafagas_inicial : Rafagas c (arranque c path tamanio absoluto) []
    (arranque c path tamanio absoluto) := by
  obtain ⟨henv, hcpus⟩ := enviados_crearPcb c inicial path tamanio absoluto
  have henv' : ∀ canal, (arranque c path tamanio absoluto).comun.enviados canal = [] := fun canal =>
    congrFun henv canal
  have hpcbs : ∃ p, p.pid = 0 ∧ (arranque c path tamanio absoluto).comun.pcbs =
      Function.update (fun _ => none) 0 (some p) := ⟨_, rfl, rfl⟩
  obtain ⟨p, hpid, hp⟩ := hpcbs
  have hsin : ∀ h ∈ (arranque c path tamanio absoluto).hilos, moduloDe h = none := by
    simp [arranque, moduloDe]
  refine ⟨conexiones_inicial c path tamanio absoluto, fun q p' hq => ?_, fun cpu fd pid hs => ?_,
    fun fdI fd n hm => ?_, fun fd fdI hm => ?_, fun m hm => ?_⟩
  · rw [hp] at hq
    by_cases h : q = 0
    · subst h
      rw [Function.update_self] at hq
      cases hq
      exact hpid
    · rw [Function.update_of_ne h] at hq
      cases hq
  · rw [arranque, hcpus] at hs
    cases hs
  · rw [henv'] at hm
    cases hm
  · cases hsin _ hm
  · cases hsin _ hm

theorem rafagas_corrida {s : Sistema Kernel Hilo}
    (hC : Cumple (paso (programa c)) Oportuna es (arranque c path tamanio absoluto))
    (hrun : correr (paso (programa c)) es (arranque c path tamanio absoluto) = some s)
    (hdef : s.comun.indefinido = false) : Rafagas c (arranque c path tamanio absoluto) es s := by
  revert hC hdef
  refine invariante_historia (I := fun es s =>
    Cumple (paso (programa c)) Oportuna es (arranque c path tamanio absoluto) →
      s.comun.indefinido = false → Rafagas c (arranque c path tamanio absoluto) es s)
    (fun _ _ => rafagas_inicial c path tamanio absoluto) ?_ hrun
  intro es e s₁ s₂ hrun hI hp hC hdef
  obtain ⟨hC, he⟩ := (cumple_concat hrun).mp hC
  exact rafagas_paso hrun (hI hC (paso_guarda hp).1) he hp hdef

/-- In a run where each interrupt is taken in its own burst, an interrupt only preempts its
target. -/
theorem interrupciones_propias {s : Sistema Kernel Hilo}
    (hC : Cumple (paso (programa c)) Oportuna es (arranque c path tamanio absoluto))
    (hrun : correr (paso (programa c)) es (arranque c path tamanio absoluto) = some s) :
    InterrupcionesPropias c es (arranque c path tamanio absoluto) s := by
  intro i m programCounter motivo hhab hmotivo
  have hI := rafagas_corrida c path tamanio absoluto hC hrun hhab.2.1
  have hm := hI.modulos m (List.mem_of_getElem? hhab.1)
  have hguarda := hhab.2.2
  dsimp only [transicion] at hguarda
  simp only [Bool.and_eq_true, decide_eq_true_eq] at hguarda
  obtain ⟨⟨hraf, -⟩, hmot⟩ := hguarda
  obtain ⟨⟨n, pid⟩, hraf⟩ := Option.isSome_iff_exists.mp hraf
  have hpend : m.interrupcionPendiente ≠ [] := by
    intro hvacia
    rw [motivoFinal, if_pos hvacia] at hmotivo
    exact hmot.elim (fun h => h hmotivo) fun h => h hvacia
  have hesp : rafagaEsperada s.comun m = n := by rw [rafagaEsperada, hraf]
  have hpropias := hm.propias
  rw [hesp] at hpropias
  refine ⟨n, pid, hraf, ?_, hpropias⟩
  obtain ⟨x, hx⟩ := List.exists_mem_of_ne_nil _ hpend
  have hmsg := hm.recibidas x hx
  rw [hpropias x hx] at hmsg
  obtain ⟨pid', hpid', hdesde⟩ := hI.avisos m.fdInterrupt m.fdDispatch n hmsg
  cases hpid'.symm.trans (hm.rafaga n pid hraf)
  exact hdesde

def configuracionSrt : ConfigKernel := ⟨.srt, .fifo, 10, 1, 50⟩

/-- The first process runs for 60 ms, waits for the device and, in its second burst, creates
another, whose shorter estimate has the kernel interrupt the CPU. -/
def hastaDesalojar : List Accion :=
  hastaEjecutar ++ [.pasaTiempo 60,
    .moduloTermina ⟨0, 1, 2, 1, some (1, 0), false, []⟩ 1 (.bloqueanteIo [68] 10),
    .recibeRespuesta 0 0 0 1 (.bloqueanteIo [68] 10), .escuchaBloquea 0 0 [68] 10,
    .escuchaEncola 0 0 0 10, .escuchaLibera 0, .ioTermina 2 [68] 0 0, .cortoTomaReady,
      .cortoTomaCpu,
    .cortoPlanifica, .moduloLee ⟨0, 1, 2, 1, none, false, []⟩,
    .moduloInitProc ⟨0, 1, 3, 1, some (2, 0), false, []⟩ [66] 10, .recibeInitProc 0 0 [66] 10 none,
    .moduloLee ⟨0, 1, 3, 1, some (2, 0), true, []⟩, .largoElige, .largoEnvia 1 false,
    .largoRecibe 1 false true, .largoResuelve 1 false true]

/-- The interrupt is taken at once. -/
def hastaInterrumpir : List Accion :=
  hastaDesalojar ++ [.moduloInterrumpe ⟨0, 1, 4, 1, some (2, 0), false, []⟩]

theorem interrupciones_propias_ejemplo : ∃ s, tras configuracionSrt hastaInterrumpir = some s ∧
    Habilitado (programa configuracionSrt)
      (3, .moduloTermina ⟨0, 1, 4, 2, some (2, 0), false, [(some 0, 2)]⟩ 2 .otro) s ∧
    InterrupcionesPropias configuracionSrt
      (agenda (programa configuracionSrt) hastaInterrumpir (arranque configuracionSrt [65] 10 none))
      (arranque configuracionSrt [65] 10 none) s := by
  have hobs : (tras configuracionSrt hastaInterrumpir).map (fun s =>
      decide (Habilitado (programa configuracionSrt)
        (3, .moduloTermina ⟨0, 1, 4, 2, some (2, 0), false, [(some 0, 2)]⟩ 2 .otro) s)) =
      some true := by decide +kernel
  have hC : Cumple (paso (programa configuracionSrt)) Oportuna
      (agenda (programa configuracionSrt) hastaInterrumpir (arranque configuracionSrt [65] 10 none))
      (arranque configuracionSrt [65] 10 none) := by decide +kernel
  obtain ⟨s, hs, hhab⟩ := Option.map_eq_some_iff.mp hobs
  exact ⟨s, hs, of_decide_eq_true hhab, interrupciones_propias configuracionSrt [65] 10 none hC hs⟩

/-- The burst ends by itself before the interrupt is taken, and the other process is given to
the CPU. -/
def hastaInterrumpirTarde : List Accion :=
  hastaDesalojar ++ [.moduloTermina ⟨0, 1, 4, 1, some (2, 0), false, []⟩ 2 (.bloqueanteIo [68] 10),
    .recibeRespuesta 0 0 0 2 (.bloqueanteIo [68] 10), .escuchaBloquea 0 0 [68] 10,
    .escuchaEncola 0 0 0 10, .escuchaLibera 0, .cortoTomaReady, .cortoTomaCpu, .cortoPlanifica,
    .moduloLee ⟨0, 1, 4, 1, none, false, []⟩,
    .moduloInterrumpe ⟨0, 1, 5, 1, some (3, 1), false, []⟩]

/-- The interrupt sent to preempt the first process ends the burst of the second. -/
theorem interrumpe_a_otro : ∃ s, tras configuracionSrt hastaInterrumpirTarde = some s ∧
    Habilitado (programa configuracionSrt)
      (4, .moduloTermina ⟨0, 1, 5, 2, some (3, 1), false, [(some 0, 2)]⟩ 1 .otro) s ∧
    ¬ InterrupcionesPropias configuracionSrt
      (agenda (programa configuracionSrt) hastaInterrumpirTarde
        (arranque configuracionSrt [65] 10 none))
      (arranque configuracionSrt [65] 10 none) s := by
  have hobs : (tras configuracionSrt hastaInterrumpirTarde).map (fun s =>
      decide (Habilitado (programa configuracionSrt)
        (4, .moduloTermina ⟨0, 1, 5, 2, some (3, 1), false, [(some 0, 2)]⟩ 1 .otro) s)) =
      some true := by decide +kernel
  obtain ⟨s, hs, hobs⟩ := Option.map_eq_some_iff.mp hobs
  have hhab := of_decide_eq_true hobs
  refine ⟨s, hs, hhab, fun hley => ?_⟩
  obtain ⟨n, pid, hraf, -, hpropias⟩ := hley _ _ _ _ hhab rfl
  cases hraf
  cases hpropias _ List.mem_cons_self

end Corridas

end KernelInterrupciones

import Tpssoo.KernelDespachos

/-!
# SRT leaves no preemption pending

While each process that comes to `cola_ready` has an interrupt of its own sent to a CPU, or needs
none, no process waits with a smaller estimate than the remaining time of one in execution once
all the interrupts have been answered and no CPU is idle.
-/
namespace KernelPendientes

open EnterosC Protocolo KernelEstado KernelFunciones KernelHilos KernelVistas KernelPcbs
open KernelPresentes KernelLargoPlazo KernelSaludos KernelInterrupciones KernelCpus
open KernelEjecucion KernelAsignacion KernelDesalojo KernelRafagas KernelSalientes KernelSrt
open KernelLlegadas KernelDespachos Cobertura Entrelazado Tartamudeo

section Rafagas

variable {c : ConfigKernel} {k : Kernel} {l r : List Hilo} {a : Accion} {q : ℤ}

/-- Only the short-term planner takes a process to `cola_exec`. -/
theorem running_sigue (hcorto : a ≠ .cortoPlanifica) (hdes : desconecta a = false)
    (hq : q ∈ ((programa c).efecto k a).colas .running) : q ∈ k.colas .running := by
  cases ha : asigna a with
  | false =>
    rcases running_efecto (c := c) (k := k) ha with h | ⟨p, -, h⟩
    · exact h ▸ hq
    · exact List.mem_of_mem_erase (h ▸ hq)
  | true =>
    cases a with
    | cortoPlanifica => exact absurd rfl hcorto
    | recibeRespuesta cpu fd pid pc motivo =>
      dsimp only [programa, transicion, recibirRespuesta] at hq
      repeat' split at hq
      · exact hq
      · exact hq
      · exact List.mem_of_mem_erase hq
      · exact List.mem_of_mem_erase hq
    | recibeOtro cpu fd =>
      dsimp only [programa, transicion] at hq
      split at hq
      · exact hq
      · exact List.mem_of_mem_erase hq
    | cpuRegistra fd nombre =>
      have hcolas : (registrarCpu k fd nombre).colas = k.colas := by
        rw [registrarCpu]
        split <;> rfl
      exact congrFun hcolas .running ▸ hq
    | escuchaLibera cpu => exact hq
    | escuchaRevisa _ | escuchaFinalizaTomado _ _ | escuchaQuita _ => cases hdes
    | _ => cases ha

/-- The process whose response is received leaves `cola_exec`. -/
theorem respuesta_saca (hA : Asignados ⟨k, l ++ (programa c).origen a :: r⟩)
    (hdef : ((programa c).efecto k a).indefinido = false)
    (hq : q ∈ ((programa c).efecto k a).colas .running) :
    ∀ cpu fd pid pc motivo, a = .recibeRespuesta cpu fd pid pc motivo →
      (k.cpus cpu).pcbEnEjecucion ≠ some q := by
  rintro cpu fd pid pc motivo rfl hen
  have hnodup := running_nodup hA
  dsimp only [programa, transicion, recibirRespuesta] at hq hdef
  rw [hen] at hq hdef
  dsimp only at hq hdef
  cases hp : k.pcbs q with
  | none =>
    rw [hp] at hdef
    cases hdef
  | some p =>
    rw [hp] at hq
    dsimp only at hq
    split at hq
    · exact hnodup.not_mem_erase hq
    · exact hnodup.not_mem_erase hq

/-- A process that stays in `cola_exec` is in the same burst. -/
theorem running_conserva (hA : Asignados ⟨k, l ++ (programa c).origen a :: r⟩)
    (hdef : ((programa c).efecto k a).indefinido = false) (hcorto : a ≠ .cortoPlanifica)
    (hdes : desconecta a = false) (hq : q ∈ ((programa c).efecto k a).colas .running) :
    Conserva (vistaPcbs k) (vistaPcbs ((programa c).efecto k a)) q := by
  have hantes : q ∈ k.colas .running := running_sigue hcorto hdes hq
  exact conserva_efecto c k hcorto
    (fun _ _ _ _ _ _ => no_ultimo hA.unaVez (peso_de_running hantes))
    (respuesta_saca hA hdef hq)

end Rafagas

section Corridas

variable {c : ConfigKernel} {s₀ s : Sistema Kernel Hilo} {es : List (ℕ × Accion)}

/-- The processes in execution started their bursts when they came to `cola_exec`. -/
def Iniciados (c : ConfigKernel) (es : List (ℕ × Accion)) (s₀ s : Sistema Kernel Hilo) : Prop :=
  ∀ q ∈ s.comun.colas .running, ∃ t, EnExecDesde c t q es s₀ ∧
    ∀ y, s.comun.pcbs q = some y → y.tiempoInicioEjecucionCpu = t

structure Atendidos (c : ConfigKernel) (es : List (ℕ × Accion)) (s₀ s : Sistema Kernel Hilo) :
    Prop where
  asignados : Asignados s
  enlaces : Enlaces s
  positivas : Positivas s.comun
  cubierto : s.comun.indefinido = false → Cubierto s
  iniciados : s.comun.indefinido = false → Iniciados c es s₀ s

variable {k : Kernel} {l r : List Hilo} {a : Accion}

theorem iniciados_paso (hsrt : c.algoritmoCortoPlazo = .srt)
    (hrun : correr (paso (programa c)) es s₀ = some ⟨k, l ++ (programa c).origen a :: r⟩)
    (hp : paso (programa c) (l.length, a) ⟨k, l ++ (programa c).origen a :: r⟩ =
      some ⟨(programa c).efecto k a, l ++ ((programa c).destino k a ++ r)⟩)
    (hA : Asignados ⟨k, l ++ (programa c).origen a :: r⟩) (hn : normal k a = true)
    (hdef : ((programa c).efecto k a).indefinido = false)
    (h : Iniciados c es s₀ ⟨k, l ++ (programa c).origen a :: r⟩) :
    Iniciados c (es ++ [(l.length, a)]) s₀
      ⟨(programa c).efecto k a, l ++ ((programa c).destino k a ++ r)⟩ := by
  have hsigue : ∀ q ∈ k.colas .running,
      Conserva (vistaPcbs k) (vistaPcbs ((programa c).efecto k a)) q →
      ∃ t, EnExecDesde c t q (es ++ [(l.length, a)]) s₀ ∧
        ∀ y, ((programa c).efecto k a).pcbs q = some y → y.tiempoInicioEjecucionCpu = t := by
    intro q hq hcons
    obtain ⟨t, hdesde, hinicio⟩ := h q hq
    refine ⟨t, Desde.sigue hrun hq hdesde, fun y' hy' => ?_⟩
    obtain ⟨y, hy, -, hini⟩ := hcons y' hy'
    exact hini.trans (hinicio y hy)
  intro q hq
  by_cases hcorto : a = .cortoPlanifica
  · subst hcorto
    rcases planificar_srt hsrt hdef with ⟨ready, n, m, hperm, heq⟩ | ⟨pcb, resto, cpu, hd⟩
    · have hefecto : (programa c).efecto k .cortoPlanifica = _ := heq
      rw [hefecto] at hq
      refine hsigue q hq (.igual ?_)
      rw [hefecto]
      rfl
    · obtain ⟨i, hi⟩ := hd.efecto
      have hefecto : (programa c).efecto k .cortoPlanifica = despachado k pcb resto i cpu := hi
      rw [hefecto] at hq
      rcases List.mem_append.mp hq with hantes | hnuevo
      · refine hsigue q hantes (hd.conserva_otro ?_)
        rintro rfl
        exact ready_o_running hA.unaVez hd.mem hantes
      · cases List.mem_singleton.mp hnuevo
        refine ⟨k.reloj, Desde.aqui hrun ⟨rfl, ready_o_running hA.unaVez hd.mem⟩ hp, fun y hy => ?_⟩
        rw [hefecto] at hy
        dsimp only [despachado] at hy
        rw [Function.update_self] at hy
        obtain ⟨p, -, rfl⟩ := Option.map_eq_some_iff.mp hy
        exact aInt_eq (of_decide_eq_true hn)
  · have hdes := desconecta_de_normal hn
    exact hsigue q (running_sigue hcorto hdes hq) (running_conserva hA hdef hcorto hdes hq)

theorem atendidos_paso (hsrt : c.algoritmoCortoPlazo = .srt) (hini : 0 ≤ c.estimacionInicial)
    (hrun : correr (paso (programa c)) es s₀ = some ⟨k, l ++ (programa c).origen a :: r⟩)
    (hp : paso (programa c) (l.length, a) ⟨k, l ++ (programa c).origen a :: r⟩ =
      some ⟨(programa c).efecto k a, l ++ ((programa c).destino k a ++ r)⟩)
    (hg : (programa c).guarda k a)
    (hP : Prevista c (l.length, a) ⟨k, l ++ (programa c).origen a :: r⟩)
    (h : Atendidos c es s₀ ⟨k, l ++ (programa c).origen a :: r⟩) :
    Atendidos c (es ++ [(l.length, a)]) s₀
      ⟨(programa c).efecto k a, l ++ ((programa c).destino k a ++ r)⟩ := by
  have hS : NombreNuevo (l.length, a) ⟨k, l ++ (programa c).origen a :: r⟩ := nuevo_de_normal hP.1
  exact
    { asignados := asignados_paso h.asignados hg hS
      enlaces := enlaces_paso h.asignados.escuchas h.enlaces hg hS (desconecta_de_normal hP.1)
      positivas := positivas_efecto hini h.positivas
      cubierto := fun hdef =>
        cubierto_paso hsrt h.positivas h.asignados h.enlaces hg hP hdef (h.cubierto hg.1)
      iniciados := fun hdef =>
        iniciados_paso hsrt hrun hp h.asignados hP.1 hdef (h.iniciados hg.1) }

theorem atendidos_inicial (hini : 0 ≤ c.estimacionInicial) (path : List Byte) (tamanio : ℤ)
    (absoluto : Option (List Byte)) :
    Atendidos c [] (arranque c path tamanio absoluto) (arranque c path tamanio absoluto) := by
  have hlista : (arranque c path tamanio absoluto).comun.listaCpus = [] :=
    congrArg VistaCpus.lista (vistaCpus_crearPcb c inicial path tamanio absoluto)
  have hA := asignados_inicial c path tamanio absoluto
  refine ⟨hA, enlaces_inicial c path tamanio absoluto, positivas_inicial hini path tamanio absoluto,
    fun _ t ht => ?_, fun _ q hq => ?_⟩
  · have ht : t ∈ quedan (arranque c path tamanio absoluto) := ht
    rw [quedan, hlista] at ht
    cases ht
  · obtain ⟨cpu, -, hcpu | hrevisa⟩ := hA.ejecucion.deCola q hq
    · rw [hlista] at hcpu
      cases hcpu
    · simp [arranque] at hrevisa

theorem atendidos_corrida (hsrt : c.algoritmoCortoPlazo = .srt) (hini : 0 ≤ c.estimacionInicial)
    {path : List Byte} {tamanio : ℤ} {absoluto : Option (List Byte)}
    (hP : Cumple (paso (programa c)) (Prevista c) es (arranque c path tamanio absoluto))
    (hrun : correr (paso (programa c)) es (arranque c path tamanio absoluto) = some s) :
    Atendidos c es (arranque c path tamanio absoluto) s := by
  refine invariante_historia (I := fun es s =>
    Cumple (paso (programa c)) (Prevista c) es (arranque c path tamanio absoluto) →
      Atendidos c es (arranque c path tamanio absoluto) s)
    (fun _ => atendidos_inicial hini path tamanio absoluto) ?_ hrun hP
  intro es e s₁ s₂ hrun₁ hI hp hC
  obtain ⟨hCes, hPe⟩ := (cumple_concat hrun₁).mp hC
  obtain ⟨l, r, hhilos, hl, hguarda, rfl⟩ := paso_casos hp
  obtain ⟨k, hilos⟩ := s₁
  cases hhilos
  obtain ⟨i, a⟩ := e
  cases hl
  exact atendidos_paso hsrt hini hrun₁ hp hguarda hPe (hI hCes)

/-- Nobody will leave a CPU when all is quiet. -/
theorem quieto_sin_salientes (h : Quieto s) : ∀ cpu ∈ s.comun.listaCpus, ¬ Saliente s cpu := by
  intro cpu hcpu hsaliente
  rcases hsaliente with hlibre | ⟨x, hx, hm⟩ | ⟨fd, hfd, hrespuesta | ⟨x, hx, -, havisado⟩⟩
  · cases (h.ocupadas cpu hcpu).symm.trans hlibre
  · cases (h.reposo.hilos x hx).1.symm.trans hm
  · cases (h.sinRespuestas cpu hcpu fd hfd).symm.trans hrespuesta
  · cases (h.sinAvisos x hx).symm.trans havisado

theorem quieto_lugares (h : Quieto s) : lugares s = 0 :=
  List.countP_eq_zero.mpr fun cpu hcpu hsaliente =>
    quieto_sin_salientes h cpu hcpu (of_decide_eq_true hsaliente)

theorem quieto_estimacion (h : Quieto s) {p : ℤ} {x : Pcb} (hp : p ∈ s.comun.colas .ready)
    (hx : s.comun.pcbs p = some x) : x.estimacionRafaga ∈ esperan s := by
  have hsin : p ∉ s.hilos.filterMap evaluaraDe := by
    intro hmem
    obtain ⟨d, hd, hev⟩ := List.mem_filterMap.mp hmem
    have hno := (h.reposo.hilos d hd).1
    cases d with
    | escuchaCambiaReady _ _ | escuchaDesaloja _ _ => cases hno
    | _ => cases hev
  exact List.mem_filterMap.mpr ⟨p, hp, estimacionDe_eq_some.mpr ⟨hsin, x, hx, rfl⟩⟩

theorem quieto_restante (h : Quieto s) (hA : Asignados s) {q : ℤ} {y : Pcb}
    (hq : q ∈ s.comun.colas .running) (hy : s.comun.pcbs q = some y) :
    tiempoRestante s.comun.reloj y ∈ quedan s := by
  obtain ⟨cpu, hej, hlistada⟩ := hA.ejecucion.deCola q hq
  have hcpu : cpu ∈ s.comun.listaCpus := by
    rcases hlistada with hcpu | hrevisa
    · exact hcpu
    · cases (h.reposo.hilos _ hrevisa).2
  refine List.mem_filterMap.mpr ⟨cpu, List.mem_filter.mpr ⟨hcpu, decide_eq_true
    (quieto_sin_salientes h cpu hcpu)⟩, restante_eq_some.mpr ?_⟩
  exact ⟨h.ocupadas cpu hcpu, q, y, hej.1, hy, rfl⟩

/-- SRT leaves no preemption pending in a run in which every process that comes to `cola_ready`
fits. -/
theorem srt_sin_pendientes (hsrt : c.algoritmoCortoPlazo = .srt) (hini : 0 ≤ c.estimacionInicial)
    {path : List Byte} {tamanio : ℤ} {absoluto : Option (List Byte)}
    (hP : Cumple (paso (programa c)) (Prevista c) es (arranque c path tamanio absoluto))
    (hrun : correr (paso (programa c)) es (arranque c path tamanio absoluto) = some s)
    (hquieto : Quieto s) : SinPendientes c es (arranque c path tamanio absoluto) s := by
  have hI := atendidos_corrida hsrt hini hP hrun
  have hdef := hquieto.reposo.definido
  intro p hp x hx q hq y hy
  obtain ⟨t, hdesde, hinicio⟩ := hI.iniciados hdef q hq
  have hcub := hI.cubierto hdef
  rw [Cubierto, quieto_lugares hquieto, cubierta_cero] at hcub
  refine ⟨t, hdesde, ?_⟩
  rw [← hinicio y hy]
  exact hcub _ (quieto_estimacion hquieto hp hx) _ (quieto_restante hquieto hI.asignados hq hy)

instance (s : Sistema Kernel Hilo) : Decidable (Quieto s) :=
  decidable_of_iff (Reposo s ∧ (∀ h ∈ s.hilos, avisado s.comun h = false) ∧
    (∀ cpu ∈ s.comun.listaCpus, ∀ fd ∈ (s.comun.cpus cpu).socketDispatch,
      (s.comun.entrantes fd).any esInterrumpida = false) ∧
    ∀ cpu ∈ s.comun.listaCpus, (s.comun.cpus cpu).cpuLibre = false)
    ⟨fun h => ⟨h.1, h.2.1, h.2.2.1, h.2.2.2⟩, fun h => ⟨h.1, h.2, h.3, h.4⟩⟩

/-- The second process takes the CPU of the first, which goes back to `cola_ready`. -/
def hastaTurnar : List Accion :=
  hastaInterrumpir ++ [.moduloTermina ⟨0, 1, 4, 2, some (2, 0), false, [(some 0, 2)]⟩ 2 .otro,
    .recibeRespuesta 0 0 0 2 .interrupcion, .escuchaAgregaReady 0 0, .escuchaCambiaReady 0 0,
    .escuchaDesaloja 0 0, .escuchaLibera 0, .cortoTomaReady, .cortoTomaCpu, .cortoPlanifica,
    .moduloLee ⟨0, 1, 4, 2, none, false, []⟩]

theorem srt_sin_pendientes_turnado : ∃ s, tras configuracionSrt hastaTurnar = some s ∧
    Quieto s ∧ s.comun.colas .ready = [0] ∧ s.comun.colas .running = [1] ∧
    SinPendientes configuracionSrt
      (agenda (programa configuracionSrt) hastaTurnar (arranque configuracionSrt [65] 10 none))
      (arranque configuracionSrt [65] 10 none) s := by
  have hobs : (tras configuracionSrt hastaTurnar).map (fun s =>
      (decide (Quieto s), s.comun.colas .ready, s.comun.colas .running)) =
      some (true, [0], [1]) := by decide +kernel
  have hP : Cumple (paso (programa configuracionSrt)) (Prevista configuracionSrt)
      (agenda (programa configuracionSrt) hastaTurnar (arranque configuracionSrt [65] 10 none))
      (arranque configuracionSrt [65] 10 none) := by decide +kernel
  obtain ⟨s, hs, h⟩ := Option.map_eq_some_iff.mp hobs
  simp only [Prod.mk.injEq, decide_eq_true_eq] at h
  exact ⟨s, hs, h.1, h.2.1, h.2.2, srt_sin_pendientes rfl (by decide) hP hs h.1⟩

theorem reloj_corrida {s' : Sistema Kernel Hilo} (hrun : correr (paso (programa c)) es s =
    some s') :
    s.comun.reloj ≤ s'.comun.reloj := by
  refine invariante_historia (I := fun _ s' => s.comun.reloj ≤ s'.comun.reloj) le_rfl ?_ hrun
  intro _ e s₁ s₂ _ hle hp
  obtain ⟨l, r, -, -, -, rfl⟩ := paso_casos hp
  exact hle.trans reloj_efecto

/-- A process that was not in `cola_exec` came to it later. -/
theorem enExecDesde_despues {t q : ℤ} {e : ℕ × Accion} {es₁ es₂ : List (ℕ × Accion)}
    (hrun : correr (paso (programa c)) es₁ s₀ = some s) (hq : q ∉ s.comun.colas .running)
    (h : EnExecDesde c t q (es₁ ++ e :: es₂) s₀) : s.comun.reloj ≤ t := by
  obtain ⟨es₃, e', es₄, s', s'', heq, hrun', ⟨rfl, -⟩, hp, hcumple⟩ := h
  rcases List.append_eq_append_iff.mp heq with ⟨m, hm, -⟩ | ⟨m, hm, hresto⟩
  · rw [hm, correr_append, hrun, Option.bind_some] at hrun'
    exact reloj_corrida hrun'
  · cases m with
    | nil =>
      rw [List.append_nil] at hm
      subst hm
      cases hrun.symm.trans hrun'
      exact le_rfl
    | cons e'' m =>
      obtain ⟨rfl, rfl⟩ := List.cons.inj hresto
      rw [hm, correr_append, hrun', Option.bind_some, correr_cons, hp, Option.bind_some] at hrun
      exact absurd ((cumple_append hrun).mp hcumple).2.1 hq

/-- A process dumps its memory with an estimate of 5, and comes back to `cola_ready` while the one
that took its CPU has 10 left. -/
def hastaTerminarVolcado : List Accion :=
  hastaEjecutar ++ [.moduloInitProc ⟨0, 1, 2, 1, some (1, 0), false, []⟩ [66] 10,
    .recibeInitProc 0 0 [66] 10 none, .moduloLee ⟨0, 1, 2, 1, some (1, 0), true, []⟩,
    .largoElige, .largoEnvia 1 false, .largoRecibe 1 false true, .largoResuelve 1 false true,
    .pasaTiempo 5, .moduloTermina ⟨0, 1, 3, 1, some (1, 0), false, []⟩ 2 .bloqueanteDumpMemory,
    .recibeRespuesta 0 0 0 2 .bloqueanteDumpMemory, .escuchaBloqueaDump 0 0, .escuchaLibera 0,
    .cortoTomaReady, .cortoTomaCpu, .cortoPlanifica, .moduloLee ⟨0, 1, 3, 1, none, false, []⟩,
    .dumpEnvia 0, .dumpRecibe 0 true, .dumpResuelve 0 true]

/-- The end of a dump has nobody checked, so a shorter process waits for a longer one. -/
theorem srt_pendiente_tras_volcado : ∃ s, tras configuracionSrt hastaTerminarVolcado = some s ∧
    Quieto s ∧ ¬ SinPendientes configuracionSrt
      (agenda (programa configuracionSrt) hastaTerminarVolcado
        (arranque configuracionSrt [65] 10 none))
      (arranque configuracionSrt [65] 10 none) s := by
  have hobs : (tras configuracionSrt hastaTerminarVolcado).map (fun s =>
      (decide (Quieto s ∧ s.comun.colas .ready = [0] ∧ s.comun.colas .running = [1]),
        s.comun.reloj, (s.comun.pcbs 0).map Pcb.estimacionRafaga,
        (s.comun.pcbs 1).map Pcb.estimacionRafaga)) = some (true, 5, some 5, some 10) := by
    decide +kernel
  have hantes : (correr (paso (programa configuracionSrt))
      ((agenda (programa configuracionSrt) hastaTerminarVolcado
        (arranque configuracionSrt [65] 10 none)).take 35)
      (arranque configuracionSrt [65] 10 none)).map (fun s =>
      (s.comun.reloj, decide (1 ∈ s.comun.colas .running))) = some (5, false) := by decide +kernel
  have hresto : ((agenda (programa configuracionSrt) hastaTerminarVolcado
      (arranque configuracionSrt [65] 10 none)).drop 35).isEmpty = false := by decide +kernel
  obtain ⟨s, hs, h⟩ := Option.map_eq_some_iff.mp hobs
  simp only [Prod.mk.injEq, decide_eq_true_eq] at h
  obtain ⟨⟨hquieto, hready, hrunning⟩, hreloj, hcero, huno⟩ := h
  obtain ⟨s₁, hs₁, h₁⟩ := Option.map_eq_some_iff.mp hantes
  simp only [Prod.mk.injEq, decide_eq_false_iff_not] at h₁
  obtain ⟨x, hx, hxest⟩ := Option.map_eq_some_iff.mp hcero
  obtain ⟨y, hy, hyest⟩ := Option.map_eq_some_iff.mp huno
  refine ⟨s, hs, hquieto, fun hsin => ?_⟩
  obtain ⟨t, hdesde, hle⟩ := hsin 0 (hready ▸ List.mem_singleton_self 0) x hx 1
    (hrunning ▸ List.mem_singleton_self 1) y hy
  rw [hxest, hyest, hreloj] at hle
  rw [← List.take_append_drop 35 (agenda _ _ _)] at hdesde
  cases hd : (agenda (programa configuracionSrt) hastaTerminarVolcado
      (arranque configuracionSrt [65] 10 none)).drop 35 with
  | nil =>
    rw [hd] at hresto
    cases hresto
  | cons e es =>
    rw [hd] at hdesde
    have ht := enExecDesde_despues hs₁ h₁.2 hdesde
    rw [h₁.1] at ht
    have ht : (5 : ℚ) ≤ t := by exact_mod_cast ht
    have hresta := (le_max_right _ _).trans hle
    push_cast at hresta
    linarith

end Corridas

end KernelPendientes

import Tpssoo.KernelPresentes

/-!
# The CPUs and those who listen to them

While the names of the CPUs are different, each CPU has one thread that listens to it. The
CPU is in `lista_cpus` until that thread takes it out, it is free just when it has no process,
and while the thread handles a response the process is still in `pcb_en_ejecucion`.
-/
namespace KernelCpus

open EnterosC Protocolo KernelEstado KernelFunciones KernelHilos KernelVistas KernelPcbs
open KernelPresentes Entrelazado

/-- The CPU whose response a thread is handling. -/
def manejaDe : Hilo → Option ℕ
  | .escuchaAgregaExit c _ | .escuchaCambiaExit c _ | .escuchaBloquea c _ _ _
  | .escuchaEncola c _ _ _ | .escuchaSinDispositivo c _ | .escuchaBloqueaDump c _
  | .escuchaAgregaReady c _ | .escuchaCambiaReady c _ | .escuchaDesaloja c _
  | .escuchaFinaliza c _ | .escuchaFinalizaAgrega c _ | .escuchaLibera c
  | .escuchaFinalizaTomado c _ => some c
  | _ => none

/-- The CPU that a thread takes out of the list, or has taken out. -/
def despideDe : Hilo → Option ℕ
  | .escuchaQuita c | .escuchaRevisa c | .escuchaFinalizaTomado c _ | .escuchaCierra c => some c
  | _ => none

/-- The CPU that a thread has taken out of the list. -/
def quitoDe : Hilo → Option ℕ
  | .escuchaRevisa c | .escuchaFinalizaTomado c _ | .escuchaCierra c => some c
  | _ => none

/-- The CPU that a thread listens to. -/
def escuchaDe : Hilo → Option ℕ
  | .cpuResponde _ c | .escuchaRecibe c _ => some c
  | h => (manejaDe h).or (despideDe h)

/-- No CPU connects under the name of one that is registered. -/
def NombreNuevo (e : ℕ × Accion) (s : Sistema Kernel Hilo) : Prop :=
  ∀ fd nombre, e.2 = .cpuRegistra fd nombre → buscarCpuPorNombre s.comun nombre = none

/-- What a thread relies on of the CPU it listens to. -/
structure Atiende (k : Kernel) (h : Hilo) : Prop where
  conocida : ∀ c, escuchaDe h = some c → c < k.totalCpus
  dentro : ∀ c, escuchaDe h = some c → quitoDe h = none → c ∈ k.listaCpus
  fuera : ∀ c, quitoDe h = some c → c ∉ k.listaCpus
  maneja : ∀ c, manejaDe h = some c →
    ∃ p, (k.cpus c).pcbEnEjecucion = some p ∧ ∀ q ∈ nombra h, q = p

/-- Each CPU is once in the list, and free just when it has no process. -/
structure Registradas (k : Kernel) : Prop where
  libres : ∀ c ∈ k.listaCpus, c < k.totalCpus ∧
    ((k.cpus c).cpuLibre = true ↔ (k.cpus c).pcbEnEjecucion = none)
  nodup : k.listaCpus.Nodup

structure Escuchas (s : Sistema Kernel Hilo) : Prop where
  unico : Unico escuchaDe s.hilos
  hilos : ∀ h ∈ s.hilos, Atiende s.comun h
  lista : Registradas s.comun
  sinOtro : ∀ fd, .otro ∉ s.comun.entrantes fd

section Hilos

variable {c : ConfigKernel} {k : Kernel} {a : Accion} {d : Hilo} {cpu : ℕ}

theorem maneja_escucha (h : manejaDe d = some cpu) : escuchaDe d = some cpu := by
  cases d <;> first | exact h | cases h

theorem quito_escucha (h : quitoDe d = some cpu) : escuchaDe d = some cpu := by
  cases d <;> first | exact h | cases h

/-- A thread goes on listening to its CPU, or ends. -/
theorem escucha_destino (ha : ∀ fd nombre, a ≠ .cpuRegistra fd nombre) :
    (((programa c).destino k a).filterMap escuchaDe).Sublist
      ([(programa c).origen a].filterMap escuchaDe) := by
  cases a with
  | cpuRegistra fd nombre => exact absurd rfl (ha fd nombre)
  | recibeRespuesta cpu fd q pc motivo =>
    dsimp only [programa, transicion, trasRespuesta]
    split
    · exact List.nil_sublist _
    split
    · exact List.nil_sublist _
    split
    · exact .refl _
    · cases motivo <;> exact .refl _
  | moduloTermina _ _ _ | moduloFallaFetch _ _ | moduloInitProc _ _ _ | moduloInterrumpe _
  | moduloLee _ | moduloDesconecta _ => exact List.nil_sublist _
  | largoElige | gestorToma | suspensionVence _ _ _ | recibeOtro _ _ | escuchaBloquea _ _ _ _
  | escuchaRevisa _ | dumpResuelve _ _ =>
    dsimp only [programa, transicion, trasDump]
    repeat' split
    all_goals exact .refl _
  | largoResuelve pcb susp ok => cases ok <;> exact .refl _
  | _ => first | exact .refl _ | exact List.nil_sublist _

theorem escucha_origen (ha : ∀ fd nombre, a ≠ .cpuRegistra fd nombre)
    (hd : d ∈ (programa c).destino k a)
    (h : escuchaDe d = some cpu) : escuchaDe ((programa c).origen a) = some cpu := by
  have hmem := (escucha_destino ha).subset (List.mem_filterMap.mpr ⟨d, hd, h⟩)
  obtain ⟨d', hd', h'⟩ := List.mem_filterMap.mp hmem
  rwa [List.mem_singleton.mp hd'] at h'

/-- The thread that has taken its CPU out does not go back. -/
theorem quito_sigue {cpu' : ℕ} (hq : quitoDe ((programa c).origen a) = some cpu')
    (hd : d ∈ (programa c).destino k a) : quitoDe d = some cpu' := by
  cases a with
  | escuchaRevisa cpu =>
    cases hq
    dsimp only [programa, transicion] at hd
    split at hd <;>
    · rw [List.mem_singleton.mp hd]
      rfl
  | escuchaFinalizaTomado cpu pcb =>
    cases hq
    rw [List.mem_singleton.mp hd]
    rfl
  | escuchaCierra cpu => cases hd
  | _ => cases hq

theorem quito_destino (hd : d ∈ (programa c).destino k a) (hq : quitoDe d = some cpu) :
    quitoDe ((programa c).origen a) = some cpu ∨ a = .escuchaQuita cpu := by
  cases a with
  | escuchaRevisa cpu' =>
    rw [quito_sigue rfl hd] at hq
    exact Or.inl hq
  | escuchaFinalizaTomado cpu' pcb =>
    rw [quito_sigue rfl hd] at hq
    exact Or.inl hq
  | escuchaQuita cpu' =>
    rw [List.mem_singleton.mp hd] at hq
    cases hq
    exact Or.inr rfl
  | recibeRespuesta cpu' fd q pc motivo =>
    dsimp only [programa, transicion, trasRespuesta] at hd
    split at hd
    · cases hd
    split at hd
    · cases hd
    split at hd
    · rw [List.mem_singleton.mp hd] at hq
      cases hq
    · rw [List.mem_singleton.mp hd] at hq
      cases motivo <;> cases hq
  | _ =>
    have hmem := List.mem_filterMap.mpr ⟨d, hd, hq⟩
    dsimp only [programa, transicion, trasDump] at hmem
    repeat' split at hmem
    all_goals cases hmem

/-- A thread that handles a response handled it already, or has just received it. -/
theorem maneja_destino (hd : d ∈ (programa c).destino k a) (hm : manejaDe d = some cpu) :
    (manejaDe ((programa c).origen a) = some cpu ∧ ∀ q ∈ nombra d, q ∈
      nombra ((programa c).origen a)) ∨
      (∃ fd, a = .recibeOtro cpu fd) ∨
      ((∃ fd pid pc motivo, a = .recibeRespuesta cpu fd pid pc motivo) ∨ a = .escuchaRevisa cpu) ∧
        ∃ p, (k.cpus cpu).pcbEnEjecucion = some p ∧ ∀ q ∈ nombra d, q = p := by
  cases a with
  | recibeRespuesta cpu' fd pid pc motivo =>
    dsimp only [programa, transicion, trasRespuesta] at hd
    split at hd
    · cases hd
    next p hp =>
    split at hd
    · cases hd
    have hsegun : manejaDe (segunMotivo cpu' p motivo) = some cpu' ∧
        nombra (segunMotivo cpu' p motivo) = [p] := by
      cases motivo <;> exact ⟨rfl, rfl⟩
    have hes : cpu' = cpu ∧ ∀ q ∈ nombra d, q = p := by
      split at hd
      · rw [List.mem_singleton.mp hd] at hm ⊢
        cases hm
        exact ⟨rfl, fun q hq => List.mem_singleton.mp hq⟩
      · rw [List.mem_singleton.mp hd] at hm ⊢
        rw [hsegun.1] at hm
        rw [hsegun.2]
        cases hm
        exact ⟨rfl, fun q hq => List.mem_singleton.mp hq⟩
    obtain ⟨rfl, hq⟩ := hes
    exact Or.inr (Or.inr ⟨Or.inl ⟨fd, pid, pc, motivo, rfl⟩, p, hp, hq⟩)
  | recibeOtro cpu' fd =>
    right
    left
    have hes : cpu' = cpu := by
      dsimp only [programa, transicion] at hd
      split at hd <;>
      · rw [List.mem_singleton.mp hd] at hm
        cases hm
        rfl
    exact ⟨fd, by rw [hes]⟩
  | escuchaRevisa cpu' =>
    right
    right
    dsimp only [programa, transicion] at hd
    split at hd
    · rw [List.mem_singleton.mp hd] at hm
      cases hm
    · next p hp =>
        rw [List.mem_singleton.mp hd] at hm ⊢
        cases hm
        exact ⟨Or.inr rfl, p, hp, fun q hq => List.mem_singleton.mp hq⟩
  | escuchaBloquea cpu' pcb dispositivo duracion =>
    left
    dsimp only [programa, transicion] at hd
    split at hd
    · rw [List.mem_singleton.mp hd] at hm ⊢
      exact ⟨hm, fun q hq => hq⟩
    · rcases List.mem_cons.mp hd with rfl | hd
      · exact ⟨hm, fun q hq => hq⟩
      · rw [List.mem_singleton.mp hd] at hm
        cases hm
  | escuchaBloqueaDump cpu' pcb =>
    left
    rcases List.mem_cons.mp hd with rfl | hd
    · exact ⟨hm, fun q hq => by cases hq⟩
    · rw [List.mem_singleton.mp hd] at hm
      cases hm
  | escuchaAgregaExit cpu' pcb | escuchaSinDispositivo cpu' pcb | escuchaAgregaReady cpu' pcb
  | escuchaCambiaReady cpu' pcb | escuchaFinaliza cpu' pcb =>
    left
    rw [List.mem_singleton.mp hd] at hm ⊢
    exact ⟨hm, fun q hq => hq⟩
  | escuchaCambiaExit cpu' pcb | escuchaEncola cpu' pcb grupo duracion | escuchaDesaloja cpu' pcb
  | escuchaFinalizaAgrega cpu' pcb =>
    left
    rw [List.mem_singleton.mp hd] at hm ⊢
    exact ⟨hm, fun q hq => by cases hq⟩
  | escuchaLibera cpu' =>
    rw [List.mem_singleton.mp hd] at hm
    cases hm
  | _ =>
    have hmem := List.mem_filterMap.mpr ⟨d, hd, hm⟩
    dsimp only [programa, transicion, trasDump] at hmem
    repeat' split at hmem
    all_goals cases hmem

end Hilos

section Cpus

variable {c : ConfigKernel} {k : Kernel} {a : Accion}

/-- The actions that register, assign, free or take out a CPU. -/
def reasigna : Accion → Bool
  | .cortoPlanifica | .cpuRegistra _ _ | .escuchaLibera _ | .escuchaQuita _
  | .escuchaFinalizaTomado _ _ | .escuchaCierra _ => true
  | _ => false

/-- Neither the CPUs nor their list have changed, as far as the planner sees. -/
structure MismasCpus (k k' : Kernel) : Prop where
  libre : ∀ cpu, (k'.cpus cpu).cpuLibre = (k.cpus cpu).cpuLibre
  en : ∀ cpu, (k'.cpus cpu).pcbEnEjecucion = (k.cpus cpu).pcbEnEjecucion
  lista : k'.listaCpus = k.listaCpus
  total : k'.totalCpus = k.totalCpus

theorem mismas_de_vista {k' : Kernel} (h : vistaCpus k' = vistaCpus k) : MismasCpus k k' :=
  ⟨congrFun (congrArg VistaCpus.libre h), congrFun (congrArg VistaCpus.enEjecucion h),
    congrArg VistaCpus.lista h, congrArg VistaCpus.total h⟩

theorem mismas_efecto (ha : reasigna a = false) : MismasCpus k ((programa c).efecto k a) := by
  cases hto : tocaCpus a with
  | false => exact mismas_de_vista (vistaCpus_efecto c k hto)
  | true =>
    cases a with
    | recibeInitProc cpu fd path tamanio absoluto =>
      have h := vistaCpus_crearPcb c (recibir k fd) path tamanio absoluto
      have hcrear : MismasCpus k (crearPcb c (recibir k fd) path tamanio absoluto) := by
        obtain ⟨hl, he, hlis, htot⟩ := mismas_de_vista h
        exact ⟨hl, he, hlis, htot⟩
      dsimp only [programa, transicion]
      split
      · exact ⟨hcrear.libre, hcrear.en, hcrear.lista, hcrear.total⟩
      · exact hcrear
    | recibeRespuesta cpu fd q pc motivo =>
      dsimp only [programa, transicion, recibirRespuesta]
      repeat' split
      all_goals exact ⟨fun _ => rfl, fun _ => rfl, rfl, rfl⟩
    | recibeOtro cpu fd =>
      dsimp only [programa, transicion]
      split <;> exact ⟨fun _ => rfl, fun _ => rfl, rfl, rfl⟩
    | cortoPlanifica | cpuRegistra _ _ | escuchaLibera _ | escuchaQuita _
    | escuchaFinalizaTomado _ _ | escuchaCierra _ => cases ha
    | _ => first | exact ⟨fun _ => rfl, fun _ => rfl, rfl, rfl⟩ | cases hto

theorem registrar_nueva (fd : ℕ) {nombre : List Byte} (h : buscarCpuPorNombre k nombre = none) :
    registrarCpu k fd nombre =
      { k with
        cpus := Function.update k.cpus k.totalCpus ⟨nombre, some fd, none, true, none⟩
        listaCpus := k.listaCpus ++ [k.totalCpus]
        totalCpus := k.totalCpus + 1
        semCpuLibre := k.semCpuLibre + 1 } := by
  have hcpu : cpuDe k nombre = k.totalCpus := by
    rw [cpuDe, h]
    rfl
  simp only [registrarCpu, h, hcpu, Kernel.conCpu, Kernel.postCpuLibre, Function.update_self,
    Function.update_idem]

/-- The free CPU that the planner finds is in the list. -/
theorem obtener_mem {i cpu : ℕ} (h : obtenerCpuLibre k = some (i, cpu)) :
    cpu ∈ k.listaCpus ∧ (k.cpus cpu).cpuLibre = true := by
  obtain ⟨j, -, hj⟩ := List.exists_of_findSome?_eq_some h
  obtain ⟨cpu', hget, hlibre⟩ := Option.bind_eq_some_iff.mp hj
  split at hlibre
  · next hl =>
      cases hlibre
      exact ⟨List.mem_of_getElem? hget, hl⟩
  · cases hlibre

/-- A CPU that the thread does not listen to stays in the list or out of it, and in execution
of the same process unless it was free. -/
theorem cpu_ajena {cpu n : ℕ} {hilos : List Hilo} (hS : NombreNuevo (n, a) ⟨k, hilos⟩)
    (hcpu : cpu < k.totalCpus) (ho : escuchaDe ((programa c).origen a) ≠ some cpu) :
    ((((programa c).efecto k a).cpus cpu).pcbEnEjecucion = (k.cpus cpu).pcbEnEjecucion ∨
        (k.cpus cpu).cpuLibre = true ∧ cpu ∈ k.listaCpus) ∧
      (cpu ∈ ((programa c).efecto k a).listaCpus ↔ cpu ∈ k.listaCpus) := by
  have hmismas : MismasCpus k ((programa c).efecto k a) →
      ((((programa c).efecto k a).cpus cpu).pcbEnEjecucion = (k.cpus cpu).pcbEnEjecucion ∨
        (k.cpus cpu).cpuLibre = true ∧ cpu ∈ k.listaCpus) ∧
      (cpu ∈ ((programa c).efecto k a).listaCpus ↔ cpu ∈ k.listaCpus) := by
    intro h
    rw [h.en, h.lista]
    exact ⟨Or.inl rfl, Iff.rfl⟩
  cases ha : reasigna a with
  | false => exact hmismas (mismas_efecto ha)
  | true =>
    cases a with
    | cortoPlanifica =>
      dsimp only [programa, transicion] at hmismas ⊢
      rcases planificar_casos c k with h | h | ⟨pcb, resto, -, -, h⟩ |
        ⟨pcb, resto, i, cpu', -, hlibre, h⟩ <;> rw [h] at hmismas ⊢
      · exact hmismas ⟨fun _ => rfl, fun _ => rfl, rfl, rfl⟩
      · exact hmismas ⟨fun _ => rfl, fun _ => rfl, rfl, rfl⟩
      · exact hmismas ⟨fun _ => rfl, fun _ => rfl, rfl, rfl⟩
      · refine ⟨?_, Iff.rfl⟩
        by_cases heq : cpu = cpu'
        · subst heq
          exact Or.inr (obtener_mem hlibre).symm
        · left
          exact congrArg Cpu.pcbEnEjecucion (Function.update_of_ne heq _ _)
    | cpuRegistra fd nombre =>
      dsimp only [programa, transicion]
      rw [registrar_nueva fd (hS fd nombre rfl)]
      refine ⟨Or.inl (congrArg Cpu.pcbEnEjecucion (Function.update_of_ne hcpu.ne _ _)), ?_⟩
      simp [hcpu.ne]
    | escuchaLibera cpu' =>
      have hne : cpu ≠ cpu' := fun heq => ho (congrArg some heq.symm)
      exact ⟨Or.inl (congrArg Cpu.pcbEnEjecucion (Function.update_of_ne hne _ _)), Iff.rfl⟩
    | escuchaQuita cpu' =>
      have hne : cpu ≠ cpu' := fun heq => ho (congrArg some heq.symm)
      exact ⟨Or.inl rfl, List.mem_erase_of_ne hne⟩
    | escuchaFinalizaTomado cpu' pcb =>
      have hne : cpu ≠ cpu' := fun heq => ho (congrArg some heq.symm)
      exact ⟨Or.inl (congrArg Cpu.pcbEnEjecucion (Function.update_of_ne hne _ _)), Iff.rfl⟩
    | escuchaCierra cpu' =>
      have hne : cpu ≠ cpu' := fun heq => ho (congrArg some heq.symm)
      exact ⟨Or.inl (congrArg Cpu.pcbEnEjecucion (Function.update_of_ne hne _ _)), Iff.rfl⟩
    | _ => cases ha

theorem total_efecto : k.totalCpus ≤ ((programa c).efecto k a).totalCpus := by
  cases ha : reasigna a with
  | false => exact (mismas_efecto ha).total.ge
  | true =>
    cases a with
    | cortoPlanifica =>
      dsimp only [programa, transicion]
      rcases planificar_casos c k with h | h | ⟨pcb, resto, -, -, h⟩ | ⟨pcb, resto, i,
          cpu, -, -, h⟩ <;>
        rw [h] <;> exact le_rfl
    | cpuRegistra fd nombre =>
      dsimp only [programa, transicion, registrarCpu]
      split
      · exact le_rfl
      · exact Nat.le_succ _
    | _ => first | exact le_rfl | cases ha

/-- The modules send no other packets. -/
theorem otro_efecto (h : ∀ fd, .otro ∉ k.entrantes fd) :
    ∀ fd, .otro ∉ ((programa c).efecto k a).entrantes fd := by
  have hmismas : ((programa c).efecto k a).entrantes = k.entrantes →
      ∀ fd, .otro ∉ ((programa c).efecto k a).entrantes fd := by
    intro heq
    rw [heq]
    exact h
  have hrecibe : ∀ fd', ((programa c).efecto k a).entrantes = (recibir k fd').entrantes →
      ∀ fd, .otro ∉ ((programa c).efecto k a).entrantes fd := by
    intro fd' heq fd hmem
    rw [heq, recibir] at hmem
    dsimp only at hmem
    by_cases hfd : fd = fd'
    · subst hfd
      rw [Function.update_self] at hmem
      exact h fd (List.mem_of_mem_tail hmem)
    · rw [Function.update_of_ne hfd] at hmem
      exact h fd hmem
  have hentrega : ∀ fd' x, x ≠ .otro → ((programa c).efecto k a).entrantes =
      (entregar k fd' x).entrantes →
      ∀ fd, .otro ∉ ((programa c).efecto k a).entrantes fd := by
    intro fd' x hx heq fd hmem
    rw [heq, entregar] at hmem
    dsimp only at hmem
    by_cases hfd : fd = fd'
    · subst hfd
      rw [Function.update_self] at hmem
      rcases List.mem_append.mp hmem with hmem | hmem
      · exact h fd hmem
      · exact hx (List.mem_singleton.mp hmem).symm
    · rw [Function.update_of_ne hfd] at hmem
      exact h fd hmem
  cases hto : tocaCpus a with
  | false => exact hmismas (congrArg VistaCpus.entrantes (vistaCpus_efecto c k hto))
  | true =>
    cases a with
    | cortoPlanifica =>
      refine hmismas ?_
      dsimp only [programa, transicion]
      rcases planificar_casos c k with h | h | ⟨pcb, resto, -, -, h⟩ | ⟨pcb, resto, i,
          cpu, -, -, h⟩ <;>
        rw [h] <;> rfl
    | cpuRegistra fd nombre =>
      refine hmismas ?_
      dsimp only [programa, transicion, registrarCpu]
      split <;> rfl
    | recibeInitProc cpu fd path tamanio absoluto =>
      refine hrecibe fd ?_
      have hcrear := congrArg VistaCpus.entrantes (vistaCpus_crearPcb c
          (recibir k fd) path tamanio absoluto)
      dsimp only [programa, transicion]
      split <;> exact hcrear
    | recibeRespuesta cpu fd q pc motivo =>
      have hcasos : ((programa c).efecto k (.recibeRespuesta cpu fd q pc motivo)).entrantes =
          k.entrantes ∨ ((programa c).efecto k (.recibeRespuesta cpu fd q pc motivo)).entrantes =
            (recibir k fd).entrantes := by
        dsimp only [programa, transicion, recibirRespuesta]
        repeat' split
        exacts [Or.inl rfl, Or.inl rfl, Or.inr rfl, Or.inr rfl]
      rcases hcasos with heq | heq
      · exact hmismas heq
      · exact hrecibe fd heq
    | recibeOtro cpu fd =>
      refine hrecibe fd ?_
      dsimp only [programa, transicion]
      split <;> rfl
    | moduloInitProc m path tamanio => exact hentrega _ _ (by simp) rfl
    | moduloTermina m pc motivo => exact hentrega _ _ (by simp) rfl
    | moduloFallaFetch m pc => exact hentrega _ _ (by simp) rfl
    | _ => first | exact hmismas rfl | cases hto

end Cpus

section Pasos

variable {c : ConfigKernel} {k : Kernel} {l r : List Hilo} {a : Accion}

theorem Escuchas.origen (hI : Escuchas ⟨k, l ++ (programa c).origen a :: r⟩) :
    Atiende k ((programa c).origen a) :=
  hI.hilos _ (List.mem_append_right _ List.mem_cons_self)

theorem atiende_nada {d : Hilo} (h : escuchaDe d = none) : Atiende k d := by
  refine ⟨fun cpu he => ?_, fun cpu he _ => ?_, fun cpu hq => ?_, fun cpu hm => ?_⟩
  · cases h.symm.trans he
  · cases h.symm.trans he
  · cases h.symm.trans (quito_escucha hq)
  · cases h.symm.trans (maneja_escucha hm)

theorem atiende_dentro {d : Hilo} {cpu : ℕ} (he : escuchaDe d = some cpu) (hq : quitoDe d = none)
    (hm : manejaDe d = none) (hlt : cpu < k.totalCpus) (hmem : cpu ∈ k.listaCpus) :
    Atiende k d := by
  refine ⟨fun cpu' h => ?_, fun cpu' h _ => ?_, fun cpu' h => ?_, fun cpu' h => ?_⟩
  · cases he.symm.trans h
    exact hlt
  · cases he.symm.trans h
    exact hmem
  · cases hq.symm.trans h
  · cases hm.symm.trans h

theorem atiende_fuera {d : Hilo} {cpu : ℕ} (hq : quitoDe d = some cpu) (hm : manejaDe d = none)
    (hlt : cpu < k.totalCpus) (hno : cpu ∉ k.listaCpus) : Atiende k d := by
  refine ⟨fun cpu' h => ?_, fun cpu' _ h => ?_, fun cpu' h => ?_, fun cpu' h => ?_⟩
  · cases (quito_escucha hq).symm.trans h
    exact hlt
  · cases hq.symm.trans h
  · cases hq.symm.trans h
    exact hno
  · cases hm.symm.trans h

/-- The other threads do not notice. -/
theorem atiende_otro (hI : Escuchas ⟨k, l ++ (programa c).origen a :: r⟩)
    (hS : NombreNuevo (l.length, a) ⟨k, l ++ (programa c).origen a :: r⟩) {h : Hilo}
    (hh : h ∈ l ++ r) : Atiende ((programa c).efecto k a) h := by
  have hmem : h ∈ l ++ (programa c).origen a :: r := by
    rcases List.mem_append.mp hh with hh | hh
    · exact List.mem_append_left _ hh
    · exact List.mem_append_right _ (List.mem_cons_of_mem _ hh)
  have hat : Atiende k h := hI.hilos h hmem
  have hajena : ∀ cpu, escuchaDe h = some cpu → _ := fun cpu hcpu =>
    cpu_ajena (c := c) hS (hat.conocida cpu hcpu) fun ho =>
      hI.unico.solo ho (List.mem_filterMap.mpr ⟨h, hh, hcpu⟩)
  refine ⟨fun cpu hcpu => (hat.conocida cpu hcpu).trans_le total_efecto, ?_, ?_, ?_⟩
  · intro cpu hcpu hq
    exact (hajena cpu hcpu).2.mpr (hat.dentro cpu hcpu hq)
  · intro cpu hq hmem
    exact hat.fuera cpu hq ((hajena cpu (quito_escucha hq)).2.mp hmem)
  · intro cpu hm
    obtain ⟨p, hp, hnombra⟩ := hat.maneja cpu hm
    refine ⟨p, ?_, hnombra⟩
    rcases (hajena cpu (maneja_escucha hm)).1 with heq | ⟨hlibre, hmem⟩
    · rwa [heq]
    · rw [(hI.lista.libres cpu hmem).2.mp hlibre] at hp
      cases hp

theorem atiende_destino (hI : Escuchas ⟨k, l ++ (programa c).origen a :: r⟩)
    (hS : NombreNuevo (l.length, a) ⟨k, l ++ (programa c).origen a :: r⟩)
    (hg : (programa c).guarda k a) {d : Hilo} (hd : d ∈ (programa c).destino k a) :
    Atiende ((programa c).efecto k a) d := by
  have hor := hI.origen
  cases ha : reasigna a with
  | false =>
    have hno : ∀ fd nombre, a ≠ .cpuRegistra fd nombre := by
      rintro fd nombre rfl
      cases ha
    have hmismas := mismas_efecto (c := c) (k := k) ha
    refine ⟨?_, ?_, ?_, ?_⟩
    · intro cpu hcpu
      rw [hmismas.total]
      exact hor.conocida cpu (escucha_origen hno hd hcpu)
    · intro cpu hcpu hq
      rw [hmismas.lista]
      refine hor.dentro cpu (escucha_origen hno hd hcpu) ?_
      cases hqo : quitoDe ((programa c).origen a) with
      | none => rfl
      | some cpu' =>
        rw [quito_sigue hqo hd] at hq
        cases hq
    · intro cpu hq
      rw [hmismas.lista]
      rcases quito_destino hd hq with hq | rfl
      · exact hor.fuera cpu hq
      · cases ha
    · intro cpu hm
      rw [hmismas.en]
      rcases maneja_destino hd hm with ⟨hm, hnombra⟩ | ⟨fd, rfl⟩ | ⟨-, p, hp, hnombra⟩
      · obtain ⟨p, hp, hq⟩ := hor.maneja cpu hm
        exact ⟨p, hp, fun q hq' => hq q (hnombra q hq')⟩
      · -- no packet of another kind has been sent
        have hhead := of_decide_eq_true hg.2
        exact absurd (List.mem_of_mem_head? hhead) (hI.sinOtro fd)
      · exact ⟨p, hp, hnombra⟩
  | true =>
    cases a with
    | cortoPlanifica =>
      rw [List.mem_singleton.mp hd]
      exact atiende_nada rfl
    | cpuRegistra fd nombre =>
      rw [List.mem_singleton.mp hd]
      dsimp only [programa, transicion]
      have hcpu : cpuDe k nombre = k.totalCpus := by
        rw [cpuDe, hS fd nombre rfl]
        rfl
      rw [registrar_nueva fd (hS fd nombre rfl), hcpu]
      exact atiende_dentro rfl rfl rfl (Nat.lt_succ_self _)
        (List.mem_append_right _ List.mem_cons_self)
    | escuchaLibera cpu =>
      rw [List.mem_singleton.mp hd]
      exact atiende_dentro rfl rfl rfl (hor.conocida cpu rfl) (hor.dentro cpu rfl rfl)
    | escuchaQuita cpu =>
      rw [List.mem_singleton.mp hd]
      refine atiende_fuera rfl rfl (hor.conocida cpu rfl) fun hmem => ?_
      exact (hI.lista.nodup.mem_erase_iff.mp hmem).1 rfl
    | escuchaFinalizaTomado cpu pcb =>
      rw [List.mem_singleton.mp hd]
      exact atiende_fuera rfl rfl (hor.conocida cpu rfl) (hor.fuera cpu rfl)
    | escuchaCierra cpu => cases hd
    | _ => cases ha

theorem registradas_efecto (hI : Escuchas ⟨k, l ++ (programa c).origen a :: r⟩)
    (hS : NombreNuevo (l.length, a) ⟨k, l ++ (programa c).origen a :: r⟩) :
    Registradas ((programa c).efecto k a) := by
  obtain ⟨hlista, hnodup⟩ : Registradas k := hI.lista
  have hmismas : MismasCpus k ((programa c).efecto k a) → Registradas
      ((programa c).efecto k a) := by
    intro h
    constructor
    · intro cpu hcpu
      rw [h.lista] at hcpu
      rw [h.total, h.libre, h.en]
      exact hlista cpu hcpu
    · rw [h.lista]
      exact hnodup
  have hupdate : ∀ cpu' (x : Cpu), ((programa c).efecto k a).cpus = Function.update k.cpus cpu' x →
      ((programa c).efecto k a).listaCpus = k.listaCpus →
      ((programa c).efecto k a).totalCpus = k.totalCpus →
      (cpu' ∈ k.listaCpus → (x.cpuLibre = true ↔ x.pcbEnEjecucion = none)) →
      Registradas ((programa c).efecto k a) := by
    intro cpu' x hcpus hlis htot hx
    constructor
    · intro cpu hcpu
      rw [hlis] at hcpu
      obtain ⟨hlt, hl⟩ := hlista cpu hcpu
      rw [htot, hcpus]
      refine ⟨hlt, ?_⟩
      by_cases heq : cpu = cpu'
      · subst heq
        rw [Function.update_self]
        exact hx hcpu
      · rw [Function.update_of_ne heq]
        exact hl
    · rw [hlis]
      exact hnodup
  cases ha : reasigna a with
  | false => exact hmismas (mismas_efecto ha)
  | true =>
    cases a with
    | cortoPlanifica =>
      dsimp only [programa, transicion] at hmismas hupdate ⊢
      rcases planificar_casos c k with h | h | ⟨pcb, resto, -, -, h⟩ |
        ⟨pcb, resto, i, cpu, -, hlibre, h⟩ <;> rw [h] at hmismas hupdate ⊢
      · exact hmismas ⟨fun _ => rfl, fun _ => rfl, rfl, rfl⟩
      · exact hmismas ⟨fun _ => rfl, fun _ => rfl, rfl, rfl⟩
      · exact hmismas ⟨fun _ => rfl, fun _ => rfl, rfl, rfl⟩
      · exact hupdate cpu _ rfl rfl rfl fun _ => by simp
    | cpuRegistra fd nombre =>
      dsimp only [programa, transicion]
      rw [registrar_nueva fd (hS fd nombre rfl)]
      constructor
      · intro cpu hcpu
        dsimp only at hcpu ⊢
        rcases List.mem_append.mp hcpu with hcpu | hcpu
        · obtain ⟨hlt, hl⟩ := hlista cpu hcpu
          rw [Function.update_of_ne hlt.ne]
          exact ⟨hlt.trans (Nat.lt_succ_self _), hl⟩
        · rw [List.mem_singleton.mp hcpu, Function.update_self]
          exact ⟨Nat.lt_succ_self _, by simp⟩
      · refine List.nodup_append.mpr ⟨hnodup, List.pairwise_singleton _ _, ?_⟩
        intro cpu hcpu cpu' hcpu'
        rw [List.mem_singleton.mp hcpu']
        exact (hlista cpu hcpu).1.ne
    | escuchaLibera cpu => exact hupdate cpu _ rfl rfl rfl fun _ => by simp
    | escuchaQuita cpu =>
      refine ⟨fun cpu' hcpu' => ?_, hnodup.erase _⟩
      exact hlista cpu' (List.mem_of_mem_erase hcpu')
    | escuchaFinalizaTomado cpu pcb =>
      exact hupdate cpu _ rfl rfl rfl fun hmem => absurd hmem (hI.origen.fuera cpu rfl)
    | escuchaCierra cpu =>
      exact hupdate cpu _ rfl rfl rfl fun hmem => absurd hmem (hI.origen.fuera cpu rfl)
    | _ => cases ha

theorem escuchas_paso (hI : Escuchas ⟨k, l ++ (programa c).origen a :: r⟩)
    (hg : (programa c).guarda k a)
    (hS : NombreNuevo (l.length, a) ⟨k, l ++ (programa c).origen a :: r⟩) :
    Escuchas ⟨(programa c).efecto k a, l ++ ((programa c).destino k a ++ r)⟩ := by
  refine ⟨?_, ?_, registradas_efecto hI hS, otro_efecto hI.sinOtro⟩
  · by_cases ha : ∃ fd nombre, a = .cpuRegistra fd nombre
    · obtain ⟨fd, nombre, rfl⟩ := ha
      refine hI.unico.entra (x := cpuDe k nombre) rfl fun hmem => ?_
      obtain ⟨h, hh, hcpu⟩ := List.mem_filterMap.mp hmem
      have hlt : cpuDe k nombre < k.totalCpus := (hI.hilos h hh).conocida _ hcpu
      rw [cpuDe, hS fd nombre rfl] at hlt
      exact absurd hlt (lt_irrefl _)
    · exact hI.unico.mueve (escucha_destino fun fd nombre heq => ha ⟨fd, nombre, heq⟩)
  · intro h hh
    simp only [List.mem_append] at hh
    rcases hh with hh | hh | hh
    · exact atiende_otro hI hS (List.mem_append_left _ hh)
    · exact atiende_destino hI hS hg hh
    · exact atiende_otro hI hS (List.mem_append_right _ hh)

theorem escuchas_inicial (c : ConfigKernel) (path : List Byte) (tamanio : ℤ)
    (absoluto : Option (List Byte)) : Escuchas (arranque c path tamanio absoluto) := by
  have hvista := vistaCpus_crearPcb c inicial path tamanio absoluto
  have hlista : (arranque c path tamanio absoluto).comun.listaCpus = [] :=
    congrArg VistaCpus.lista hvista
  have hentrantes : (arranque c path tamanio absoluto).comun.entrantes = fun _ => [] :=
    congrArg VistaCpus.entrantes hvista
  refine ⟨List.nodup_nil, ?_, ⟨?_, ?_⟩, ?_⟩
  · intro h hh
    simp only [arranque, List.mem_cons, List.not_mem_nil, or_false] at hh
    rcases hh with rfl | rfl | rfl | rfl | rfl | rfl <;> exact atiende_nada rfl
  · rw [hlista]
    intro cpu hcpu
    cases hcpu
  · rw [hlista]
    exact List.nodup_nil
  · intro fd
    rw [hentrantes]
    exact List.not_mem_nil

end Pasos

end KernelCpus

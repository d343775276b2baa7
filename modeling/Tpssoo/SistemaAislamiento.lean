import Tpssoo.CpuBitacora
import Tpssoo.SistemaCpus

/-!
# Every process runs as if it were alone

Whatever the other processes, the number of CPUs, the sizes and algorithms of their tables,
and the suspensions, dumps and ends that Memoria handles in between, the turns that a process
takes are those of its program over a private memory.
-/
namespace SistemaAislamiento

open EnterosC Protocolo RangosBytes Bloques MemoriaEstado MemoriaTraduccion MemoriaPeticiones
  MemoriaFilas MemoriaEfectos MemoriaInvariante MemoriaAdmision MemoriaContenido MemoriaPrivada
  MemoriaVolcado MemoriaResidencia CpuEstado CpuAccesos CpuMemoria CpuCoherencia CpuRafagas
  CpuTransparencia CpuInstrucciones CpuCiclo CpuDesalojo CpuGiros CpuPrivada CpuAjena CpuBitacora
  MemoriaPropia SistemaCpus Tartamudeo
open SistemaConjunto (deCpu)

variable {cfg : Config} {ι : Type} {cpus : ι → Cpu} {s s' : Equipo cfg ι}
  {pid : ℤ} {p q : Proceso cfg} {xs : List Byte} {vida : Vida}

/-- Turns that the program of the process takes alone, on a memory of its size, and the memory
that they leave. -/
structure Vivida (p : Proceso cfg) (vida : Vida) (xs : List Byte) : Prop where
  largo : vida.memoria.length = paginasDadas cfg p.tamProceso * cfg.tamPagina
  giros : girar (privada cfg p.instrucciones) vida.memoria (vida.giros.map Giro.entrada) =
    some (vida.giros, xs)

/-- The memory of a process: the one that the CPU in its burst stands for, and in no burst
its pages in Memoria. -/
structure Guarda (s : Equipo cfg ι) (pid : ℤ) (p : Proceso cfg) (xs : List Byte) : Prop where
  corre : ∀ i, Corre s i pid → ∃ v, Representa pid p (procesos s.memoria) (s.cpu i) v ∧
    Llena p (paginaEn v p) xs
  espera : (∀ i, ¬ Corre s i pid) → Llena p (paginaLogica s.memoria pid) xs

structure Fiel (s : Equipo cfg ι) : Prop where
  sana : Sana s.memoria
  libre : ∀ i, (s.nucleos i).rafaga = none → MmuLimpia (s.cpu i)
  unico : ∀ i j pid, Corre s i pid → Corre s j pid → i = j
  vive : ∀ i pid, Corre s i pid → buscarProceso s.memoria.diccionarioProcesos pid ≠ none
  memorias : ∀ pid p, buscarProceso s.memoria.diccionarioProcesos pid = some p →
    ∃ xs, Vivida p (s.vidas pid) xs ∧ Guarda s pid p xs

section Memorias

theorem vivida_mismo (h : Vivida p vida xs) (hpq : MismoPrograma p q) : Vivida q vida xs where
  largo := by
    rw [hpq.tam]
    exact h.largo
  giros := by
    rw [hpq.instrucciones]
    exact h.giros

/-- A process keeps its memory through a step that moves its pages with their contents, or
that leaves them in their frames while a CPU runs it. -/
theorem guarda_sigue (h : Guarda s pid p xs) (hs : Sana s.memoria) (hinv : Invariante s'.memoria)
    (hp : buscarProceso s.memoria.diccionarioProcesos pid = some p)
    (hq : buscarProceso s'.memoria.diccionarioProcesos pid = some q)
    (htam : q.tamProceso = p.tamProceso)
    (hnucleos : ∀ i, Corre s i pid ∨ Corre s' i pid → s'.nucleos i = s.nucleos i)
    (hpq : ∀ i, Corre s i pid → MismasPaginas p q)
    (hpaginas : paginaLogica s'.memoria pid = paginaLogica s.memoria pid) :
    Guarda s' pid q xs where
  corre := by
    intro i hi
    have hmismo := hnucleos i (Or.inr hi)
    have hantes : Corre s i pid := by
      rw [Corre, ← hmismo]
      exact hi
    obtain ⟨v, hrep, hll⟩ := h.corre i hantes
    have hmismas := hpq i hantes
    have hfila : q.entradas = p.entradas := by
      rw [Proceso.entradas, Proceso.entradas, hmismas.tabla]
    have hmarcos : ∀ f, Propio p f → vista s'.memoria f = vista s.memoria f := by
      rintro f ⟨e, he, hpres, rfl⟩
      obtain ⟨k, hk⟩ := List.mem_iff_getElem?.mp he
      have hlogica := congrFun hpaginas k
      rw [paginas_vista hs hp hll, pagina_vista hinv hq, paginaEn_presente hk hpres,
        paginaEn_presente (hfila.symm ▸ hk) hpres] at hlogica
      · exact Option.some.inj hlogica
      · intro e' he' hasig
        rw [hfila] at he'
        obtain ⟨j, hj⟩ := List.mem_iff_getElem?.mp he'
        exact presente_de_llena hs hp hll hj hasig
    obtain ⟨v', hrep', hv⟩ := representa_ajena hrep hinv hq hmismas hmarcos
    refine ⟨v', ?_, llena_mismas hll hmismas hv⟩
    rw [Equipo.cpu, hmismo]
    exact hrep'
  espera := by
    intro hno
    have hantes : ∀ i, ¬ Corre s i pid := by
      intro i hi
      apply hno i
      rw [Corre, hnucleos i (Or.inl hi)]
      exact hi
    rw [Llena, hpaginas, htam]
    exact h.espera hantes

theorem limpia_otra {s : EstadoCpu cfg} (h : MmuLimpia s) (m : Memoria cfg) :
    MmuLimpia (⟨s.tlb, s.cache, m⟩ : EstadoCpu cfg) :=
  ⟨h.tlb, h.cache, h.puntero⟩

theorem renacer_nuevo {m : Memoria cfg} (vidas : ℤ → Vida) (tam largo : ℤ) (path : List Byte)
    (hp : buscarProceso m.diccionarioProcesos pid = some p) :
    renacer vidas (responder OpCode.initProcesoOk.codigo) m (.initProc pid tam largo path) pid =
      ⟨imagen m pid (paginasDadas cfg p.tamProceso), []⟩ := by
  rw [renacer, if_pos rfl, Function.update_self, nueva, hp]
  rfl

/-- The log of a process that is in Memoria is not started again. -/
theorem renacer_vivo {m m' : Memoria cfg} {pet : Peticion} (vidas : ℤ → Vida)
    (envios : List Envio) (hfresco : PidFresco m pet)
    (hp : buscarProceso m.diccionarioProcesos pid = some p) :
    renacer vidas envios m' pet pid = vidas pid := by
  cases pet with
  | initProc nuevo tam largo path =>
    have hne : pid ≠ nuevo := by
      rintro rfl
      rw [PidFresco, hp] at hfresco
      cases hfresco
    rw [renacer]
    split
    · exact Function.update_of_ne hne _ _
    · rfl
  | _ => rfl

end Memorias

section Giros

variable {i : ι}

theorem vivida_otra {xs' : List Byte} {pendiente : Bool} {pc : ℤ} {g : Giro}
    (h : Vivida p vida xs)
    (hg : giro (privada cfg p.instrucciones) pendiente xs pc = some (g, xs')) :
    Vivida p (vida.con g) xs' where
  largo := h.largo
  giros := by
    rw [Vida.con, List.map_append, List.map_singleton, entrada_giro hg]
    exact girar_otra h.giros hg

/-- The turn that a CPU takes is the one that the program takes alone. -/
theorem giro_a_solas {pc : ℤ} (halg : (cpus i).algoritmoCache ≠ .otro) (h : Fiel s)
    (hp : buscarProceso s.memoria.diccionarioProcesos pid = some p) (hcorre : Corre s i pid)
    (hguarda : Guarda s pid p xs) (pendiente : Bool)
    (hbien : ∀ inst ∈ instruccionEn p.instrucciones pc, AccesoEn (Bien cfg) (alCpu inst)) :
    Option.Rel (fun x y => x.1 = y.1 ∧ Encarna pid p s.memoria x.2 y.2 ∧
        (x.1.sigue = none → Asienta p x.2 y.2))
      (giro (maquina (cpus i) pid) pendiente (s.cpu i) pc)
      (giro (privada cfg p.instrucciones) pendiente xs pc) := by
  have hpriv := maquina_privada (cpus i) halg hp (h.sana.instalado hp)
  have hencarna : Encarna pid p s.memoria (s.cpu i) xs := ⟨hguarda.corre i hcorre, .refl p _⟩
  apply giro_relacionadas hpriv hencarna pendiente
  intro x inst hfetch
  obtain ⟨m', hprograma, -⟩ := fetch_programa (cpus i) h.sana.invariante.pids hp pc
  change (CpuInstrucciones.fetch (cpus i) s.memoria pid pc).map _ = _ at hfetch
  rw [hprograma, Option.map_some, Option.some_inj, Prod.mk.injEq] at hfetch
  obtain ⟨inst', hinst', rfl⟩ := Option.map_eq_some_iff.mp hfetch.1
  exact hbien inst' hinst'

end Giros

theorem fiel_arranque (cfg : Config) (entradasTlb entradasCache : ι → ℤ) :
    Fiel (arranque cfg entradasTlb entradasCache) where
  sana := sana_inicial cfg
  libre := by
    intro i _
    exact limpia_otra (mmuLimpia_iniciar (entradasTlb i) (entradasCache i) (inicial cfg)) _
  unico := by
    intro i j pid hi
    cases hi
  vive := by
    intro i pid hi
    cases hi
  memorias := by
    intro pid p hp
    cases hp

/-- The dump of a process that no CPU runs is the memory that its turns have left. -/
theorem volcado_fiel (h : Fiel s) (hp : buscarProceso s.memoria.diccionarioProcesos pid = some p)
    (hquieto : ∀ i, ¬ Corre s i pid) {env : Entorno} (henv : env.SinFallas cfg)
    (habre : env.dumpAbre = true) :
    ∃ xs, Vivida p (s.vidas pid) xs ∧ manejarSolicitudDump env s.memoria pid =
      (true, { s.memoria with volcados := (pid, xs) :: s.memoria.volcados }) := by
  obtain ⟨xs, hvivida, hguarda⟩ := h.memorias pid p hp
  have hmem := (buscarProceso_some hp).1
  have hdadas : p.entradas.countP EntradaTabla.asignada = paginasDadas cfg p.tamProceso :=
    h.sana.dadas p hmem
  have himagen : imagen s.memoria pid (p.entradas.countP EntradaTabla.asignada) = xs := by
    rw [hdadas]
    exact (llena_imagen h.sana hp).unica (hguarda.espera hquieto) cfg.tamPagina_pos
  have hvolcado := volcado_eq_imagen h.sana.privada (h.sana.filas p hmem) hp henv
  rw [himagen] at hvolcado
  refine ⟨xs, hvivida, ?_⟩
  simp only [manejarSolicitudDump, hp, habre, if_true, hvolcado]

section Pasos

variable [DecidableEq ι]

/-- A request of the kernel. -/
theorem fiel_atiende {env : Entorno} {pet : Peticion} (h : Fiel s)
    (hP : Promete (.atiende env pet) s) (hfallas : env.SinFallas cfg)
    (hpaso : paso cpus (.atiende env pet) s = some s') : Fiel s' := by
  obtain ⟨hfresco, htam, hslots, hquietos⟩ := hP
  obtain ⟨hcpu, envios, m', hat, rfl⟩ := atiende_casos hpaso
  have hinv := h.sana.invariante
  have hef := efecto_de_atender hinv.pids hat
  have hbien : OperacionesBien s.memoria env pet m' := operacionesBien hfallas hslots
  have hsana := sana_efecto h.sana hfresco htam hef hbien
  have hescribe : ∀ pid' marco offset tamanio contenido,
      pet ≠ .escribirMemoria pid' marco offset tamanio contenido := by
    rintro pid' marco offset tamanio contenido rfl
    cases hcpu
  refine ⟨hsana, fun i hi => limpia_otra (h.libre i hi) m', h.unico, ?_, ?_⟩
  · intro i pid hi
    apply viva_efecto hef ?_ (h.vive i pid hi)
    rintro rfl
    exact hquietos pid rfl i hi
  · intro pid q hq
    cases hp : buscarProceso s.memoria.diccionarioProcesos pid with
    | none =>
      -- a new process, which has taken no turn
      obtain ⟨tam, largo, path, rfl, rfl⟩ :=
        nace_de_atender hinv.pids hat hp (by rw [hq]; exact Option.some_ne_none q)
      have hll := llena_imagen hsana hq
      refine ⟨_, ?_, ⟨?_, fun _ => hll⟩⟩
      · dsimp only
        rw [renacer_nuevo s.vidas tam largo path hq]
        exact ⟨hll.largo, rfl⟩
      · intro i hi
        exact absurd hp (h.vive i pid hi)
    | some p =>
      obtain ⟨xs, hvivida, hguarda⟩ := h.memorias pid p hp
      obtain ⟨hprog, hmismas⟩ := mismo_efecto hfresco hef hp hq
      refine ⟨xs, ?_, ?_⟩
      · dsimp only
        rw [renacer_vivo s.vidas envios hfresco hp]
        exact vivida_mismo hvivida hprog
      · refine guarda_sigue hguarda h.sana hsana.invariante hp hq hprog.tam (fun _ _ => rfl) ?_ ?_
        · intro i hi
          apply hmismas
          intro hmueve
          exact hquietos pid hmueve i hi
        · funext k
          exact pagina_efecto h.sana.privada hfresco hef
            (sinErrores_bien hinv h.sana.bajos hfresco hef hbien) hescribe
            (by rw [hp]; exact Option.some_ne_none p) (by rw [hq]; exact Option.some_ne_none q) k

variable {i : ι} {r : Option (ℤ × ℤ)} {x : EstadoCpu cfg}

/-- The other processes, when CPU `i` runs `pid`. -/
theorem otras_memorias {otro : ℤ} (h : Fiel s)
    (hp : buscarProceso s.memoria.diccionarioProcesos pid = some p)
    (hajena : Ajena p s.memoria x.memoria) (hinv : Invariante x.memoria)
    (hlibre : ¬ Corre s i otro) (hr : r.map Prod.fst ≠ some otro) (hne : pid ≠ otro)
    (hq : buscarProceso x.memoria.diccionarioProcesos otro = some q) :
    ∃ xs, Vivida q (s.vidas otro) xs ∧ Guarda (s.conCpu i x r) otro q xs := by
  have hprocesos := hajena.solo.procesos
  have hviva : buscarProceso s.memoria.diccionarioProcesos otro ≠ none := by
    rw [viva_iff, ← pids_procesos hprocesos, ← viva_iff, hq]
    exact Option.some_ne_none q
  obtain ⟨q₀, hq₀⟩ := Option.ne_none_iff_exists'.mp hviva
  obtain ⟨xs, hvivida, hguarda⟩ := h.memorias otro q₀ hq₀
  obtain ⟨hprog, hmismas⟩ := mismo_procesos hprocesos hq₀ hq
  refine ⟨xs, vivida_mismo hvivida hprog, ?_⟩
  refine guarda_sigue hguarda h.sana hinv hq₀ hq hprog.tam ?_ (fun _ _ => hmismas)
    (pagina_ajena h.sana hp hq₀ hne hajena)
  rintro j (hj | hj)
  · apply nucleo_conCpu
    rintro rfl
    exact hlibre hj
  · apply nucleo_conCpu
    rintro rfl
    exact hr (corre_conCpu.mp hj)

/-- The other CPUs, when CPU `i` runs `pid`. -/
theorem fiel_conCpu {vidas : ℤ → Vida} (h : Fiel s)
    (hp : buscarProceso s.memoria.diccionarioProcesos pid = some p)
    (hajena : Ajena p s.memoria x.memoria) (hinv : Invariante x.memoria)
    (hlibre : ∀ otro, otro ≠ pid → ¬ Corre s i otro) (hsolo : ∀ j, Corre s j pid → j = i)
    (hr : ∀ otro, r.map Prod.fst = some otro → otro = pid) (hlimpia : r = none → MmuLimpia x)
    (hvidas : ∀ otro, otro ≠ pid → vidas otro = s.vidas otro)
    (hpropia : ∀ q, buscarProceso x.memoria.diccionarioProcesos pid = some q →
      ∃ xs, Vivida q (vidas pid) xs ∧ Guarda (s.conCpu i x r) pid q xs) :
    Fiel { s.conCpu i x r with vidas := vidas } where
  sana := sana_solo h.sana hajena.solo hinv
  libre := by
    intro j hj
    change MmuLimpia ((s.conCpu i x r).cpu j)
    change ((s.conCpu i x r).nucleos j).rafaga = none at hj
    by_cases hji : j = i
    · subst hji
      rw [nucleo_propio] at hj
      rw [cpu_conCpu]
      exact hlimpia hj
    · rw [nucleo_conCpu hji] at hj
      rw [Equipo.cpu, nucleo_conCpu hji]
      exact limpia_otra (h.libre j hj) x.memoria
  unico := by
    have hde : ∀ j otro, Corre (s.conCpu i x r) j otro → j ≠ i → Corre s j otro :=
      fun j otro hj hji => (corre_otro hji).mp hj
    intro j k otro hj hk
    change Corre (s.conCpu i x r) j otro at hj
    change Corre (s.conCpu i x r) k otro at hk
    by_cases hji : j = i <;> by_cases hki : k = i
    · rw [hji, hki]
    · subst hji
      have hotro := hr otro (corre_conCpu.mp hj)
      subst hotro
      exact absurd (hsolo k (hde k otro hk hki)) hki
    · subst hki
      have hotro := hr otro (corre_conCpu.mp hk)
      subst hotro
      exact absurd (hsolo j (hde j otro hj hji)) hji
    · exact h.unico j k otro (hde j otro hj hji) (hde k otro hk hki)
  vive := by
    intro j otro hj
    change Corre (s.conCpu i x r) j otro at hj
    have hpids := pids_procesos hajena.solo.procesos
    rw [viva_iff, memoria_conCpu, hpids, ← viva_iff]
    by_cases hji : j = i
    · subst hji
      rw [hr otro (corre_conCpu.mp hj), hp]
      exact Option.some_ne_none p
    · exact h.vive j otro ((corre_otro hji).mp hj)
  memorias := by
    intro otro q hq
    by_cases hotro : otro = pid
    · subst hotro
      obtain ⟨xs, hvivida, hguarda⟩ := hpropia q hq
      exact ⟨xs, hvivida, hguarda.corre, hguarda.espera⟩
    · obtain ⟨xs, hvivida, hguarda⟩ := otras_memorias h hp hajena hinv (hlibre otro hotro)
        (fun hno => hotro (hr otro hno)) (Ne.symm hotro) hq
      refine ⟨xs, ?_, hguarda.corre, hguarda.espera⟩
      dsimp only
      rw [hvidas otro hotro]
      exact hvivida

/-- A dispatch. -/
theorem fiel_recibe {pc : ℤ} (h : Fiel s) (hP : Promete (.recibe i pid pc) s)
    (hpaso : paso cpus (.recibe i pid pc) s = some s') : Fiel s' := by
  obtain ⟨hviva, hres, hquieto⟩ := hP
  obtain ⟨hnada, x, hlimpia, rfl⟩ := recibe_casos hpaso
  obtain ⟨p, hp⟩ := Option.isSome_iff_exists.mp hviva
  obtain ⟨xs, hvivida, hguarda⟩ := h.memorias pid p hp
  have hrep := representa_limpia h.sana.invariante (h.libre i hnada) hp (mismas_refl p)
  obtain ⟨x', hlimpia', -, hvista, hrep', hajena⟩ := limpieza_asienta (cpus i) hrep
  cases hlimpia'.symm.trans hlimpia
  have hinv := hrep'.sana.invariante
  have hll : Llena p (paginaEn (vista s.memoria) p) xs := by
    have hespera := hguarda.espera hquieto
    rwa [Llena, paginas_residente h.sana hp hres] at hespera
  change Fiel { s.conCpu i x (some (pid, pc)) with vidas := s.vidas }
  refine fiel_conCpu h hp hajena hinv ?_ ?_ ?_ ?_ (fun _ _ => rfl) ?_
  · intro otro _ hno
    rw [Corre, hnada] at hno
    cases hno
  · exact fun j hj => absurd hj (hquieto j)
  · intro otro hotro
    exact (Option.some.inj hotro).symm
  · intro hno
    cases hno
  · intro q hq
    obtain ⟨hprog, hmismas⟩ := mismo_procesos hajena.solo.procesos hp hq
    refine ⟨xs, vivida_mismo hvivida hprog, ?_, ?_⟩
    · intro j hj
      have hji : j = i := by
        by_contra hji
        exact hquieto j ((corre_otro hji).mp hj)
      subst hji
      rw [cpu_conCpu, memoria_conCpu]
      refine ⟨vista s.memoria, ?_, llena_mismas hll hmismas fun _ _ => rfl⟩
      rw [hajena.solo.procesos]
      exact representa_mismas hrep' hmismas
    · intro hno
      exact absurd (corre_conCpu.mpr rfl) (hno i)

/-- A turn of a burst. -/
theorem fiel_gira {pendiente : Bool} (halg : ∀ i, (cpus i).algoritmoCache ≠ .otro) (h : Fiel s)
    (hP : Promete (.gira i pendiente) s)
    (hpaso : paso cpus (.gira i pendiente) s = some s') : Fiel s' := by
  obtain ⟨pid, pc, g, x, hraf, hgiro, rfl⟩ := gira_casos hpaso
  have hcorre : Corre s i pid := by
    rw [Corre, hraf]
    rfl
  obtain ⟨p, hp⟩ := Option.ne_none_iff_exists'.mp (h.vive i pid hcorre)
  obtain ⟨xs, hvivida, hguarda⟩ := h.memorias pid p hp
  have hrel := giro_a_solas (halg i) h hp hcorre hguarda pendiente
    (hP (pid, pc) hraf p hp)
  rw [hgiro] at hrel
  cases hsolo : giro (privada cfg p.instrucciones) pendiente xs pc with
  | none =>
    rw [hsolo] at hrel
    cases hrel
  | some y =>
    obtain ⟨g', xs'⟩ := y
    rw [hsolo] at hrel
    obtain ⟨hg, ⟨⟨v, hrep, hll⟩, hajena⟩, hfin⟩ := hrel
    dsimp only at hg hll hfin hrep hajena
    subst hg
    have hinv := hrep.sana.invariante
    have hsolos : ∀ otro, otro ≠ pid → ¬ Corre s i otro := by
      intro otro hne hno
      rw [Corre, hraf] at hno
      exact hne (Option.some.inj hno).symm
    have hunico : ∀ j, Corre s j pid → j = i := fun j hj => h.unico j i pid hj hcorre
    refine fiel_conCpu h hp hajena hinv hsolos hunico ?_ ?_ ?_ ?_
    · intro otro hotro
      rw [Option.map_map, Option.map_eq_some_iff] at hotro
      obtain ⟨pc', -, rfl⟩ := hotro
      rfl
    · intro hno
      exact (hfin (Option.map_eq_none_iff.mp hno)).limpia
    · intro otro hotro
      exact Function.update_of_ne hotro _ _
    · intro q hq
      obtain ⟨hprog, hmismas⟩ := mismo_procesos hajena.solo.procesos hp hq
      rw [Function.update_self]
      refine ⟨xs', vivida_mismo (vivida_otra hvivida hsolo) hprog, ?_, ?_⟩
      · intro j hj
        have hji : j = i := by
          by_contra hji
          exact hji (hunico j ((corre_otro hji).mp hj))
        subst hji
        rw [cpu_conCpu, memoria_conCpu]
        refine ⟨v, ?_, llena_mismas hll hmismas fun _ _ => rfl⟩
        rw [hajena.solo.procesos]
        exact representa_mismas hrep hmismas
      · intro hno
        have hsigue : g.sigue = none := by
          by_contra hsi
          obtain ⟨pc', hpc'⟩ := Option.ne_none_iff_exists'.mp hsi
          apply hno i
          rw [corre_conCpu, hpc']
          rfl
        have hllq : Llena q (paginaEn (vista x.memoria) q) xs' :=
          llena_mismas (hfin hsigue).llena hmismas fun _ _ => rfl
        rw [memoria_conCpu, Llena, paginas_vista (sana_solo h.sana hajena.solo hinv) hq hllq]
        exact hllq

theorem fiel_paso (halg : ∀ i, (cpus i).algoritmoCache ≠ .otro) {e : Evento ι} (h : Fiel s)
    (hP : Promete e s) (hfallas : SinFallas cfg e) (hpaso : paso cpus e s = some s') :
    Fiel s' := by
  cases e with
  | atiende env pet => exact fiel_atiende h hP hfallas hpaso
  | recibe i pid pc => exact fiel_recibe h hP hpaso
  | gira i pendiente => exact fiel_gira halg h hP hpaso

/-- A dispatch only writes user memory. -/
theorem solo_recibe {pc : ℤ} (h : Fiel s) (hP : Promete (.recibe i pid pc) s)
    (hpaso : paso cpus (.recibe i pid pc) s = some s') : SoloMemoria s.memoria s'.memoria := by
  obtain ⟨hnada, x, hlimpia, rfl⟩ := recibe_casos hpaso
  obtain ⟨p, hp⟩ := Option.isSome_iff_exists.mp hP.1
  obtain ⟨x', hlimpia', -, -, -, hajena⟩ := limpieza_asienta (cpus i)
    (representa_limpia h.sana.invariante (h.libre i hnada) hp (mismas_refl p))
  cases hlimpia'.symm.trans hlimpia
  exact hajena.solo

/-- So does a turn. -/
theorem solo_gira {pendiente : Bool} (halg : ∀ i, (cpus i).algoritmoCache ≠ .otro) (h : Fiel s)
    (hP : Promete (.gira i pendiente) s)
    (hpaso : paso cpus (.gira i pendiente) s = some s') : SoloMemoria s.memoria s'.memoria := by
  obtain ⟨pid, pc, g, x, hraf, hgiro, rfl⟩ := gira_casos hpaso
  have hcorre : Corre s i pid := by
    rw [Corre, hraf]
    rfl
  obtain ⟨p, hp⟩ := Option.ne_none_iff_exists'.mp (h.vive i pid hcorre)
  obtain ⟨xs, -, hguarda⟩ := h.memorias pid p hp
  have hrel := giro_a_solas (halg i) h hp hcorre hguarda pendiente (hP (pid, pc) hraf p hp)
  rw [hgiro] at hrel
  cases hsolo : giro (privada cfg p.instrucciones) pendiente xs pc with
  | none =>
    rw [hsolo] at hrel
    cases hrel
  | some y =>
    rw [hsolo] at hrel
    obtain ⟨-, ⟨-, hajena⟩, -⟩ := hrel
    exact hajena.solo

end Pasos

section Corridas

variable [DecidableEq ι] {entradasTlb entradasCache : ι → ℤ} {es : List (Evento ι)}

theorem fiel_corrida (halg : ∀ i, (cpus i).algoritmoCache ≠ .otro)
    (hC : Cumple (SistemaCpus.paso cpus) Promete es (arranque cfg entradasTlb entradasCache))
    (hfallas : ∀ e ∈ es, SinFallas cfg e)
    (hrun : correr (SistemaCpus.paso cpus) es (arranque cfg entradasTlb entradasCache) =
      some s) : Fiel s :=
  invariante_corrida (fun _ _ _ h hP hpaso => fiel_paso halg h hP.1 hP.2 hpaso)
    (fiel_arranque cfg entradasTlb entradasCache) (cumple_con hC hfallas) hrun

/-- A READ returns, byte by byte, the last byte that the process itself wrote there since
Memoria admitted it, and what its pages held then where it wrote none. -/
theorem lee_lo_ultimo_escrito (halg : ∀ i, (cpus i).algoritmoCache ≠ .otro)
    (hC : Cumple (SistemaCpus.paso cpus) Promete es (arranque cfg entradasTlb entradasCache))
    (hfallas : ∀ e ∈ es, SinFallas cfg e)
    (hrun : correr (SistemaCpus.paso cpus) es (arranque cfg entradasTlb entradasCache) = some s)
    (hp : buscarProceso s.memoria.diccionarioProcesos pid = some p) {antes despues : List Registro}
    {dl tamanio : ℤ} {leidos : List Byte} (hlee : bitacora (s.vidas pid).giros =
      antes ++ (.read dl tamanio, .hecho leidos) :: despues) (k : ℕ) :
    leidos[k]? = if k < tamanio.toNat then
      (ultimoEscrito antes (dl.toNat + k)).or (s.vidas pid).memoria[dl.toNat + k]? else none := by
  obtain ⟨xs, hvivida, -⟩ := (fiel_corrida halg hC hfallas hrun).memorias pid p hp
  have hrepasa := repasa_giros hvivida.giros
  rw [hlee] at hrepasa
  exact lectura_repasa hrepasa k

/-- `WRITE 0 x`, `READ 0 1` and `EXIT`. -/
def entornoEscribe (letra : Byte) : Entorno :=
  ⟨fun _ => some [87, 82, 73, 84, 69, 32, 48, 32, letra, 10, 82, 69, 65, 68, 32, 48, 32, 49, 10,
    69, 88, 73, 84, 10], true, fun _ => accesoCorrecto⟩

def equipoEjemplo : Equipo configEjemplo (Fin 2) := arranque configEjemplo (fun _ => 1) fun _ => 1

/-- Two processes write to their address 0, in two CPUs. The first is suspended between its
write and its read, which happens in the CPU of the second. -/
def corridaEjemplo : List (Evento (Fin 2)) :=
  [.atiende (entornoEscribe 65) (.initProc 1 8 0 []),
    .atiende (entornoEscribe 66) (.initProc 2 8 0 []), .recibe 0 1 0, .recibe 1 2 0, .gira 0 true,
    .gira 1 false, .atiende entornoEjemplo (.suspenderProceso 1),
    .atiende entornoEjemplo (.desuspenderProceso 1), .gira 1 true, .recibe 1 1 1, .gira 1 true]

abbrev cpusEjemplo (_ : Fin 2) : Cpu := cpuEjemplo

theorem sin_fallas_corrida : ∀ e ∈ corridaEjemplo, SinFallas configEjemplo e := by
  have hescribe : ∀ letra, (entornoEscribe letra).SinFallas configEjemplo :=
    fun _ => sin_fallas_ejemplo
  simp [corridaEjemplo, SinFallas, hescribe, sin_fallas_ejemplo]

theorem algoritmos_ejemplo (i : Fin 2) : (cpusEjemplo i).algoritmoCache ≠ .otro := by
  change cpuEjemplo.algoritmoCache ≠ .otro
  decide

/-- What the run leaves of the first process. -/
theorem corrida_ejemplo : ∃ (s : Equipo configEjemplo (Fin 2)) (p : Proceso configEjemplo),
    correr (SistemaCpus.paso cpusEjemplo) corridaEjemplo equipoEjemplo = some s ∧
      buscarProceso s.memoria.diccionarioProcesos 1 = some p ∧
      (s.vidas 1).giros.map Giro.entrada = [(0, true), (1, true)] ∧
      bitacora (s.vidas 1).giros = [(.write 0 [65], .hecho []), (.read 0 1, .hecho [65])] ∧
      ∀ i, ¬ Corre s i 1 := by
  have hrun : ((correr (SistemaCpus.paso cpusEjemplo) corridaEjemplo equipoEjemplo).any fun s =>
      (buscarProceso s.memoria.diccionarioProcesos 1).any fun _ =>
        decide ((s.vidas 1).giros.map Giro.entrada = [(0, true), (1, true)] ∧
          bitacora (s.vidas 1).giros = [(.write 0 [65], .hecho []), (.read 0 1, .hecho [65])] ∧
          ∀ i, ¬ Corre s i 1)) = true := by
    decide +kernel
  obtain ⟨s, hs, hobs⟩ := (Option.any_eq_true _ _).mp hrun
  obtain ⟨p, hp, hobs⟩ := (Option.any_eq_true _ _).mp hobs
  exact ⟨s, p, hs, hp, of_decide_eq_true hobs⟩

theorem promete_ejemplo :
    Cumple (SistemaCpus.paso cpusEjemplo) Promete corridaEjemplo equipoEjemplo := by
  decide +kernel

theorem lee_lo_ultimo_escrito_ejemplo : ∃ s : Equipo configEjemplo (Fin 2),
    correr (SistemaCpus.paso cpusEjemplo) corridaEjemplo equipoEjemplo = some s ∧
      ∀ k : ℕ, ([65] : List Byte)[k]? = if k < (1 : ℤ).toNat then
        (ultimoEscrito [(.write 0 [65], .hecho [])] ((0 : ℤ).toNat + k)).or
          (s.vidas 1).memoria[(0 : ℤ).toNat + k]? else none := by
  obtain ⟨s, p, hs, hp, -, hlog, -⟩ := corrida_ejemplo
  have hpartes : bitacora (s.vidas 1).giros =
      [(.write 0 [65], .hecho [])] ++ (.read 0 1, .hecho [65]) :: [] := hlog
  refine ⟨s, hs, ?_⟩
  exact lee_lo_ultimo_escrito algoritmos_ejemplo promete_ejemplo sin_fallas_corrida hs hp hpartes

end Corridas

end SistemaAislamiento

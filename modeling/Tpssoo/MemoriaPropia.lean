import Tpssoo.CpuAjena

/-!
# The memory of each process

What the requests of the kernel and the turns of the CPUs keep of every process: its program,
its size and its pages, wherever each page is. The pages of a process whose entries all have
frames are those frames.
-/
namespace MemoriaPropia

open EnterosC Protocolo RangosBytes Bloques CacheDiferida MemoriaEstado MemoriaSwap
  MemoriaInstrucciones MemoriaTraduccion MemoriaPeticiones MemoriaFilas MemoriaEfectos
  MemoriaInvariante MemoriaAdmision MemoriaMarcos MemoriaContenido MemoriaPrivada MemoriaVolcado
  MemoriaResidencia CpuEstado CpuAccesos CpuMemoria CpuCoherencia CpuRafagas CpuProteccion
  CpuTransparencia CpuPrivada CpuAjena

variable {cfg : Config} {m m' : Memoria cfg} {env : Entorno} {pet : Peticion} {pid : ℤ}
  {p q : Proceso cfg} {envios : List Envio}

/-- The process whose pages a request moves or frees. -/
def mueve : Peticion → Option ℤ
  | .finalizarProceso pid | .suspenderProceso pid | .desuspenderProceso pid => some pid
  | _ => none

/-- The size of a new process is one that the page table can hold. -/
def TamanioBien (cfg : Config) : Peticion → Prop
  | .initProc _ tam _ _ => TamanioAdmisible cfg tam
  | _ => True

/-- What holds of Memoria between the requests of the kernel and the turns of the CPUs. -/
structure Sana (m : Memoria cfg) : Prop where
  privada : InvPrivada m
  bajos : SlotsBajos cfg m.almacen.bitmapSwap
  filas : ∀ p ∈ m.diccionarioProcesos, AsignadasPrimero p.entradas
  dadas : ∀ p ∈ m.diccionarioProcesos, ConSusPaginas p
  tamanios : ∀ p ∈ m.diccionarioProcesos, TamanioAdmisible cfg p.tamProceso ∧
    paginasRequeridas cfg p.tamProceso ≤ cfg.cantidadMarcos

/-- The program and the size of a process. -/
structure MismoPrograma (p q : Proceso cfg) : Prop where
  instrucciones : q.instrucciones = p.instrucciones
  tam : q.tamProceso = p.tamProceso

section Sana

theorem Sana.invariante (h : Sana m) : Invariante m := h.privada.base

theorem Sana.instalado (h : Sana m) (hp : buscarProceso m.diccionarioProcesos pid = some p) :
    Instalado p := by
  obtain ⟨htam, hcabe⟩ := h.tamanios p (buscarProceso_some hp).1
  exact instalado_de_invariante h.invariante hp htam hcabe

theorem sana_inicial (cfg : Config) : Sana (inicial cfg) where
  privada := privada_de_alcanzable .inicial
  bajos := slotsBajos_inicial cfg
  filas := fun _ hp => absurd hp List.not_mem_nil
  dadas := fun _ hp => absurd hp List.not_mem_nil
  tamanios := fun _ hp => absurd hp List.not_mem_nil

/-- What metrics do not count holds of the processes of states with the same ones. -/
theorem todos_procesos {Q : Proceso cfg → Prop}
    (hmetricas : ∀ p q : Proceso cfg, soloMetricasSwap p = soloMetricasSwap q → Q p → Q q)
    (hp : procesos m' = procesos m) (h : ∀ p ∈ m.diccionarioProcesos, Q p) :
    ∀ p ∈ m'.diccionarioProcesos, Q p := by
  intro p hmem
  have hmem' : soloMetricasSwap p ∈ procesos m := hp ▸ List.mem_map_of_mem hmem
  obtain ⟨q, hq, hqp⟩ := List.mem_map.mp hmem'
  exact hmetricas q p hqp (h q hq)

theorem tamanios_efecto (hinv : Invariante m) (htam : TamanioBien cfg pet)
    (h : ∀ p ∈ m.diccionarioProcesos, TamanioAdmisible cfg p.tamProceso ∧
      paginasRequeridas cfg p.tamProceso ≤ cfg.cantidadMarcos) (hef : Efecto env m pet m') :
    ∀ p ∈ m'.diccionarioProcesos, TamanioAdmisible cfg p.tamProceso ∧
      paginasRequeridas cfg p.tamProceso ≤ cfg.cantidadMarcos := by
  cases hef with
  | quieto ha hp =>
    refine todos_procesos ?_ hp h
    intro p q hpq hbien
    exact (iguales_de_soloSwap hpq).2.2 ▸ hbien
  | escritura hcopia hlargo ha hp =>
    refine todos_procesos ?_ hp h
    intro p q hpq hbien
    exact (iguales_de_soloSwap hpq).2.2 ▸ hbien
  | alta inst hcabe =>
    rename_i nuevo tam largo path
    intro p hp
    rcases List.mem_cons.mp hp with rfl | hp
    · rw [(crearProceso_campos cfg m.almacen.bitmapMarcos nuevo tam inst).1]
      refine ⟨htam, hcabe.trans ?_⟩
      have hlibres := List.count_le_length (a := false) (l := m.almacen.bitmapMarcos)
      rw [hinv.entradas.bitmap] at hlibres
      rw [contarMarcosLibres]
      omega
    · exact h p (List.mem_of_mem_filter hp)
  | baja hp =>
    intro p hp
    exact h p (List.mem_of_mem_filter hp)
  | suspension hp =>
    refine mem_modificar ?_ h
    rw [(suspenderPaginas_resto env m.almacen _).2.1]
    exact h _ (buscarProceso_some hp).1
  | desuspension hp hcabe =>
    refine mem_modificar ?_ h
    rw [(desuspenderPaginas_resto env m.almacen _).2.1]
    exact h _ (buscarProceso_some hp).1

theorem sinErrores_bien (hinv : Invariante m) (hbajos : SlotsBajos cfg m.almacen.bitmapSwap)
    (hfresco : PidFresco m pet) (hef : Efecto env m pet m') (hbien : OperacionesBien m env pet m') :
    SinErrores m env pet m' :=
  ⟨hbien.1, offsets_de_bajos (invariante_efecto hinv hfresco hef)
    (slotsBajos_efecto hbajos hef hbien)⟩

theorem sana_efecto (h : Sana m) (hfresco : PidFresco m pet) (htam : TamanioBien cfg pet)
    (hef : Efecto env m pet m') (hbien : OperacionesBien m env pet m') : Sana m' where
  privada := privada_efecto h.privada hfresco hef (sinErrores_bien h.invariante h.bajos hfresco
    hef hbien)
  bajos := slotsBajos_efecto h.bajos hef hbien
  filas := asignadas_efecto h.filas hef
  dadas := (paginas_efecto ⟨h.invariante.pids, h.dadas⟩ hef).dadas
  tamanios := tamanios_efecto h.invariante htam h.tamanios hef

theorem todasEntradas_procesos (h : procesos m' = procesos m) :
    todasEntradas m'.diccionarioProcesos = todasEntradas m.diccionarioProcesos := by
  rw [← todasEntradas_soloSwap, ← todasEntradas_soloSwap m.diccionarioProcesos]
  exact congrArg _ h

/-- A burst leaves Memoria sane. -/
theorem sana_solo (h : Sana m) (hsolo : SoloMemoria m m') (hinv : Invariante m') : Sana m' where
  privada := by
    have hes := todasEntradas_procesos hsolo.procesos
    refine ⟨hinv, ⟨hinv.entradas, ?_⟩, ?_⟩
    · rw [hes, hsolo.almacen]
      exact h.privada.contenido.archivo
    · rw [hes]
      exact h.privada.offsets
  bajos := by
    rw [hsolo.almacen]
    exact h.bajos
  filas := by
    refine todos_procesos ?_ hsolo.procesos h.filas
    intro p q hpq hfila
    exact (iguales_de_soloSwap hpq).2.1 ▸ hfila
  dadas := by
    refine todos_procesos ?_ hsolo.procesos h.dadas
    intro p q hpq hdadas
    obtain ⟨-, hfila, htam⟩ := iguales_de_soloSwap hpq
    rw [ConSusPaginas] at hdadas ⊢
    rwa [← hfila, ← htam]
  tamanios := by
    refine todos_procesos ?_ hsolo.procesos h.tamanios
    intro p q hpq hbien
    exact (iguales_de_soloSwap hpq).2.2 ▸ hbien

end Sana

section Paginas

variable {v v' : ℕ → List Byte} {xs : List Byte} {k : ℕ}

theorem pagina_eq (m : Memoria cfg) (hp : buscarProceso m.diccionarioProcesos pid = some p)
    (k : ℕ) : paginaLogica m pid k = (p.entradas[k]?).bind (contenidoLogico cfg m.almacen) := by
  rw [paginaLogica, hp, Option.bind_some]

theorem mem_entradas (hp : buscarProceso m.diccionarioProcesos pid = some p) {e : EntradaTabla}
    (he : e ∈ p.entradas) : e ∈ todasEntradas m.diccionarioProcesos :=
  List.mem_flatMap.mpr ⟨p, (buscarProceso_some hp).1, he⟩

/-- The pages of a process, wherever they are, make a memory of its size. -/
theorem llena_imagen (h : Sana m) (hp : buscarProceso m.diccionarioProcesos pid = some p) :
    Llena p (paginaLogica m pid) (imagen m pid (paginasDadas cfg p.tamProceso)) := by
  have hmem := (buscarProceso_some hp).1
  have hdadas : p.entradas.countP EntradaTabla.asignada = paginasDadas cfg p.tamProceso :=
    h.dadas p hmem
  have hcuantas := paginas_primero (m := m) (h.filas p hmem) hp
  rw [hdadas] at hcuantas
  refine reparte_juntar ?_ ?_ cfg.tamPagina_pos
  · intro k hk
    obtain ⟨xs, hxs⟩ := Option.isSome_iff_exists.mp ((hcuantas k).mpr hk)
    refine ⟨xs, hxs, ?_⟩
    rw [pagina_eq m hp] at hxs
    obtain ⟨e, he, hxs⟩ := Option.bind_eq_some_iff.mp hxs
    exact length_contenidoLogico h.privada.contenido (mem_entradas hp (List.mem_of_getElem? he)) hxs
  · intro k hk
    rw [← Option.not_isSome_iff_eq_none, hcuantas k]
    omega

/-- The entries of a process whose pages fill its memory from frames. -/
theorem presente_de_llena (h : Sana m) (hp : buscarProceso m.diccionarioProcesos pid = some p)
    (hll : Llena p (paginaEn v p) xs) {e : EntradaTabla} (he : p.entradas[k]? = some e)
    (hasig : e.asignada = true) : e.presente = true := by
  have hmem := (buscarProceso_some hp).1
  have hdadas : p.entradas.countP EntradaTabla.asignada = paginasDadas cfg p.tamProceso :=
    h.dadas p hmem
  have hk : k < paginasDadas cfg p.tamProceso := by
    rw [← hdadas, ← paginas_primero (m := m) (h.filas p hmem) hp, pagina_eq m hp, he,
      Option.bind_some, contenidoLogico_isSome]
    exact hasig
  obtain ⟨e', he', hpres, -⟩ := paginaEn_some (hll.dentro hk)
  cases he.symm.trans he'
  exact hpres

theorem contenidoMarco_vista (hinv : Invariante m)
    (hp : buscarProceso m.diccionarioProcesos pid = some p) {e : EntradaTabla}
    (he : e ∈ p.entradas) (hpres : e.presente = true) :
    contenidoMarco cfg m.almacen.memoriaUsuario e.numeroMarco = vista m e.numeroMarco.toNat := by
  have hrango := marco_rango hinv.entradas (mem_entradas hp he) hpres
  rw [contenidoMarco, (puntero_marco cfg hrango).1]
  rfl

/-- The pages of a process with all its entries in frames are those frames. -/
theorem pagina_vista (hinv : Invariante m)
    (hp : buscarProceso m.diccionarioProcesos pid = some p)
    (hpres : ∀ e ∈ p.entradas, e.asignada = true → e.presente = true) (k : ℕ) :
    paginaLogica m pid k = paginaEn (vista m) p k := by
  rw [pagina_eq m hp]
  cases he : p.entradas[k]? with
  | none =>
    rw [paginaEn, he]
    rfl
  | some e =>
    have hmem := List.mem_of_getElem? he
    rw [Option.bind_some]
    by_cases hp' : e.presente = true
    · rw [paginaEn_presente he hp', contenidoLogico_presente hp',
        contenidoMarco_vista hinv hp hmem hp']
    · have hno : (contenidoLogico cfg m.almacen e).isSome = false := by
        rw [contenidoLogico_isSome]
        exact Bool.eq_false_iff.mpr fun hasig => hp' (hpres e hmem hasig)
      rw [paginaEn, he, Option.bind_some, if_neg hp']
      exact Option.not_isSome_iff_eq_none.mp (by rw [hno]; exact Bool.false_ne_true)

theorem paginas_vista (h : Sana m) (hp : buscarProceso m.diccionarioProcesos pid = some p)
    (hll : Llena p (paginaEn v p) xs) : paginaLogica m pid = paginaEn (vista m) p := by
  funext k
  apply pagina_vista h.invariante hp
  intro e he hasig
  obtain ⟨j, hj⟩ := List.mem_iff_getElem?.mp he
  exact presente_de_llena h hp hll hj hasig

/-- The pages of a resident process fill its memory from frames. -/
theorem paginas_residente (h : Sana m) (hp : buscarProceso m.diccionarioProcesos pid = some p)
    (hres : Residente m pid) : paginaLogica m pid = paginaEn (vista m) p := by
  have hsin := (residente_iff ⟨h.invariante.pids, h.dadas⟩).mp hres p (buscarProceso_some hp).1
    (buscarProceso_some hp).2
  funext k
  apply pagina_vista h.invariante hp
  intro e he hasig
  have hfuera : ¬ e.enSwap = true := List.countP_eq_zero.mp hsin e he
  by_contra hpres
  rw [EntradaTabla.asignada] at hasig
  rw [EntradaTabla.enSwap] at hfuera
  simp_all

theorem paginaEn_congr
    (h : ∀ e ∈ p.entradas, e.presente = true → v' e.numeroMarco.toNat = v e.numeroMarco.toNat) :
    paginaEn v' p = paginaEn v p := by
  funext k
  rw [paginaEn, paginaEn]
  cases he : p.entradas[k]? with
  | none => rfl
  | some e =>
    rw [Option.bind_some, Option.bind_some]
    split
    · next hpres => rw [h e (List.mem_of_getElem? he) hpres]
    · rfl

theorem paginaEn_mismas (h : MismasPaginas p q) : paginaEn v q = paginaEn v p := by
  funext k
  have hfila : q.entradas = p.entradas := by
    rw [Proceso.entradas, Proceso.entradas, h.tabla]
  rw [paginaEn, paginaEn, hfila]

end Paginas

section Pedidos

theorem mismas_refl (p : Proceso cfg) : MismasPaginas p p := ⟨rfl, rfl⟩

/-- A process of states with the same ones up to metrics. -/
theorem mismo_procesos (h : procesos m' = procesos m)
    (hp : buscarProceso m.diccionarioProcesos pid = some p)
    (hq : buscarProceso m'.diccionarioProcesos pid = some q) :
    MismoPrograma p q ∧ MismasPaginas p q := by
  have hbusca := buscar_procesos h pid
  rw [hp, hq, Option.map_some, Option.map_some, Option.some_inj] at hbusca
  have hinst : (soloMetricasSwap q).instrucciones = (soloMetricasSwap p).instrucciones :=
    congrArg Proceso.instrucciones hbusca
  have hmismas := mismasPaginas_soloSwap hbusca
  exact ⟨⟨hinst, hmismas.tam⟩, hmismas⟩

/-- A request keeps the program and the size of a process that lives on, and its pages where
they are unless it is the one that moves them. -/
theorem mismo_efecto (hfresco : PidFresco m pet) (hef : Efecto env m pet m')
    (hp : buscarProceso m.diccionarioProcesos pid = some p)
    (hq : buscarProceso m'.diccionarioProcesos pid = some q) :
    MismoPrograma p q ∧ (mueve pet ≠ some pid → MismasPaginas p q) := by
  have hmodifica : ∀ (r : Proceso cfg) (otro : ℤ) (r₀ : Proceso cfg),
      buscarProceso m.diccionarioProcesos otro = some r₀ → r.pid = r₀.pid →
      r.instrucciones = r₀.instrucciones → r.tamProceso = r₀.tamProceso →
      buscarProceso (modificarProceso m.diccionarioProcesos r) pid = some q →
      MismoPrograma p q ∧ (some otro ≠ some pid → MismasPaginas p q) := by
    intro r otro r₀ hr₀ hpid hinst htam hmod
    have hotro := (buscarProceso_some hr₀).2
    have hpropio := (buscarProceso_some hp).2
    rw [buscarProceso_modificar, hp, Option.map_some, Option.some_inj] at hmod
    by_cases hmio : otro = pid
    · subst hmio
      cases hr₀.symm.trans hp
      rw [if_pos (by omega)] at hmod
      subst hmod
      exact ⟨⟨hinst, htam⟩, fun hno => absurd rfl hno⟩
    · rw [if_neg (by omega)] at hmod
      subst hmod
      exact ⟨⟨rfl, rfl⟩, fun _ => mismas_refl p⟩
  cases hef with
  | quieto ha hpr =>
    obtain ⟨hprog, hmismas⟩ := mismo_procesos hpr hp hq
    exact ⟨hprog, fun _ => hmismas⟩
  | escritura hcopia hlargo ha hpr =>
    obtain ⟨hprog, hmismas⟩ := mismo_procesos hpr hp hq
    exact ⟨hprog, fun _ => hmismas⟩
  | alta inst hcabe =>
    rename_i nuevo tam largo path
    have hpid := pid_crearProceso cfg m.almacen.bitmapMarcos nuevo tam inst
    have hne : nuevo ≠ pid := by
      rintro rfl
      rw [PidFresco, hp] at hfresco
      cases hfresco
    have hq' : buscarProceso m.diccionarioProcesos pid = some q := by
      simpa [guardar_fresco (hpid.symm ▸ hfresco), buscarProceso, hpid, hne] using hq
    cases hq'.symm.trans hp
    exact ⟨⟨rfl, rfl⟩, fun _ => mismas_refl p⟩
  | baja hpo =>
    rename_i otro po
    by_cases hne : pid = otro
    · subst hne
      exfalso
      obtain ⟨hmem, hpid⟩ := buscarProceso_some hq
      have hfuera := (List.mem_filter.mp hmem).2
      simp [hpid] at hfuera
    · have hq' : buscarProceso (quitarProceso m.diccionarioProcesos otro) pid = some q := hq
      rw [buscar_quitar hne, hp] at hq'
      cases hq'
      exact ⟨⟨rfl, rfl⟩, fun _ => mismas_refl p⟩
  | suspension hpo =>
    obtain ⟨hpid, htam, -, hinst, -⟩ := suspenderPaginas_resto env m.almacen _
    exact hmodifica _ _ _ hpo hpid hinst htam hq
  | desuspension hpo hcabe =>
    obtain ⟨hpid, htam, -, hinst, -⟩ := desuspenderPaginas_resto env m.almacen _
    exact hmodifica _ _ _ hpo hpid hinst htam hq

/-- A process appears by the request that Memoria answers with an OK. -/
theorem nace_de_atender (hn : (m.diccionarioProcesos.map Proceso.pid).Nodup)
    (hat : atenderPostHandshake env m pet = some (envios, m'))
    (hantes : buscarProceso m.diccionarioProcesos pid = none)
    (hviva : buscarProceso m'.diccionarioProcesos pid ≠ none) :
    ∃ tam largo path, pet = .initProc pid tam largo path ∧
      envios = responder OpCode.initProcesoOk.codigo := by
  have hno : pid ∉ m.diccionarioProcesos.map Proceso.pid := by
    rw [← viva_iff, hantes]
    exact fun h => h rfl
  have hsi := viva_iff.mp hviva
  cases efecto_de_atender hn hat with
  | quieto ha hpr => exact absurd (pids_procesos hpr ▸ hsi) hno
  | escritura hcopia hlargo ha hpr => exact absurd (pids_procesos hpr ▸ hsi) hno
  | alta inst hcabe =>
    rename_i nuevo tam largo path
    have hpid := pid_crearProceso cfg m.almacen.bitmapMarcos nuevo tam inst
    rw [guardarProceso, List.map_cons, hpid] at hsi
    have hnuevo : pid = nuevo := by
      rcases List.mem_cons.mp hsi with h | h
      · exact h
      · exact absurd (List.map_subset _ (List.filter_subset_self _) h) hno
    subst hnuevo
    refine ⟨tam, largo, path, rfl, ?_⟩
    rw [atenderPostHandshake] at hat
    split at hat
    · cases hat
    · rcases almacenar_cases hat with ⟨hm', -⟩ | ⟨inst', henvios, -⟩
      · rw [hm', hantes] at hviva
        exact absurd rfl hviva
      · exact henvios
  | baja hpo => exact absurd (List.map_subset _ (List.filter_subset_self _) hsi) hno
  | suspension hpo =>
    rw [conPaginas, conProceso, conAlmacen, pids_modificar] at hsi
    exact absurd hsi hno
  | desuspension hpo hcabe =>
    rw [conPaginas, conProceso, conAlmacen, pids_modificar] at hsi
    exact absurd hsi hno

end Pedidos

section Rafagas

variable {s : EstadoCpu cfg} {v : ℕ → List Byte} {xs : List Byte}

theorem traducidaEn_mismas (h : MismasPaginas p q) (U : ℤ → Prop) :
    TraducidaEn q U = TraducidaEn p U := by
  funext pagina marco
  simp only [TraducidaEn, Traducida, acepta_mismas h, traducir_mismas h]

/-- The tables of a burst are those of any copy of its process with the same pages. -/
theorem representa_mismas {ps : List (Proceso cfg)} (h : Representa pid p ps s v)
    (hpq : MismasPaginas p q) : Representa pid q ps s v where
  sana :=
    { invariante := h.sana.invariante
      proceso := by
        obtain ⟨r, hr, hpr⟩ := h.sana.proceso
        exact ⟨r, hr, hpr.tabla.trans hpq.tabla.symm, hpr.tam.trans hpq.tam.symm⟩
      tlb := by
        rw [traducidaEn_mismas hpq]
        exact h.sana.tlb
      cache := by
        rw [traducidaEn_mismas hpq]
        exact h.sana.cache }
  procesos := h.procesos
  refleja := h.refleja

/-- Frame `f` holds a page of the process. -/
def Propio (p : Proceso cfg) (f : ℕ) : Prop :=
  ∃ e ∈ p.entradas, e.presente = true ∧ e.numeroMarco.toNat = f

/-- A burst does not see a change of Memoria that leaves the pages of its process in their
frames, and those frames as they are. -/
theorem representa_ajena {ps : List (Proceso cfg)} (h : Representa pid p ps s v)
    (hinv : Invariante m') (hq : buscarProceso m'.diccionarioProcesos pid = some q)
    (hpq : MismasPaginas p q) (hmarcos : ∀ f, Propio p f → vista m' f = vista s.memoria f) :
    ∃ v', Representa pid q (procesos m') ⟨s.tlb, s.cache, m'⟩ v' ∧
      ∀ f, Propio p f → v' f = v f := by
  classical
  refine ⟨fun f => if Propio p f then v f else vista m' f, ?_, fun f hf => if_pos hf⟩
  apply representa_mismas ?_ hpq
  constructor
  · exact ⟨hinv, ⟨q, hq, hpq⟩, h.sana.tlb, h.sana.cache⟩
  · rfl
  · refine refleja_respaldo h.refleja ?_ hmarcos
    intro i l hl
    obtain ⟨e, he, hpres, hmarco⟩ :=
      asignado_de_linea (sana_todas h.sana).cache (List.mem_of_getElem? hl)
    refine ⟨e, he, hpres, ?_⟩
    rw [hmarco, Int.toNat_natCast]

/-- The memory of a process, from one copy of it to another. -/
theorem llena_mismas {v' : ℕ → List Byte} (hll : Llena p (paginaEn v p) xs)
    (hpq : MismasPaginas p q) (hv : ∀ f, Propio p f → v' f = v f) :
    Llena q (paginaEn v' q) xs := by
  have hpaginas : paginaEn v' q = paginaEn v p := by
    rw [paginaEn_mismas hpq]
    apply paginaEn_congr
    intro e he hpres
    exact hv _ ⟨e, he, hpres, rfl⟩
  rw [Llena, hpaginas, hpq.tam]
  exact hll

/-- The frames of one process are not those of another. -/
theorem marco_ajeno (hinv : Invariante m) {otro : ℤ}
    (hp : buscarProceso m.diccionarioProcesos pid = some p)
    (hq : buscarProceso m.diccionarioProcesos otro = some q) (hne : pid ≠ otro) {f : ℕ}
    (hf : Propio q f) : ¬ MarcoAsignado p f := by
  rintro ⟨e, he, hpres, hmarco⟩
  obtain ⟨e', he', hpres', hmarco'⟩ := hf
  obtain ⟨j, hj⟩ := List.mem_iff_getElem?.mp he
  obtain ⟨k, hk⟩ := List.mem_iff_getElem?.mp he'
  have hrango := (marco_rango hinv.entradas (mem_entradas hq he') hpres').1
  have hunica := pagina_unica EntradaTabla.presente hinv.pids hinv.entradas.duenosMarcos.1
    ⟨p, hp, hj⟩ ⟨q, hq, hk⟩ hpres hpres' (by omega)
  exact hne hunica.1

/-- The burst of a process leaves every page of the others. -/
theorem pagina_ajena (h : Sana m) {otro : ℤ}
    (hp : buscarProceso m.diccionarioProcesos pid = some p)
    (hq : buscarProceso m.diccionarioProcesos otro = some q) (hne : pid ≠ otro)
    (hajena : Ajena p m m') : paginaLogica m' otro = paginaLogica m otro := by
  obtain ⟨q', hq', hmismas⟩ := proceso_procesos hajena.solo.procesos hq
  have hfila : q'.entradas = q.entradas := by
    rw [Proceso.entradas, Proceso.entradas, hmismas.tabla]
  funext k
  rw [pagina_eq m' hq', pagina_eq m hq, hfila]
  cases he : q.entradas[k]? with
  | none => rfl
  | some e =>
    have hmem := List.mem_of_getElem? he
    rw [Option.bind_some, Option.bind_some]
    apply contenidoLogico_congr
    · intro hpres
      have hptr := (puntero_marco cfg
        (marco_rango h.invariante.entradas (mem_entradas hq hmem) hpres)).1
      rw [contenidoMarco, contenidoMarco, hptr]
      exact vista_fuera hajena.fuera
        (marco_ajeno h.invariante hp hq hne ⟨e, hmem, hpres, rfl⟩)
    · intro _
      rw [hajena.solo.almacen]

end Rafagas

end MemoriaPropia

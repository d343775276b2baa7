import Tpssoo.MemoriaContenido

/-!
# A private memory per process

In runs where the swap file does not fail and its offsets fit in an int, a page keeps its
content through every request but an accepted write, which changes exactly the bytes of
its range that lie in the frame the page holds.
-/
namespace MemoriaPrivada

open EnterosC Protocolo RangosBytes MemoriaEstado MemoriaSwap MemoriaPaginacion MemoriaTraduccion
  MemoriaPeticiones MemoriaFilas MemoriaEfectos MemoriaInvariante MemoriaMarcos MemoriaContenido

variable {cfg : Config} {env : Entorno} {m m' : Memoria cfg} {pet : Peticion} {pid : ℤ}
  {envios : List Envio}

/-- No operation on the swap file fails, and the offsets of the slots in use fit in an int. -/
def SinErrores (_ : Memoria cfg) (env : Entorno) (_ : Peticion) (m' : Memoria cfg) : Prop :=
  env.SinFallas cfg ∧ ∀ e ∈ todasEntradas m'.diccionarioProcesos, SlotCabe cfg e.posicionSwap

section Procesos

theorem viva_iff {ps : List (Proceso cfg)} :
    buscarProceso ps pid ≠ none ↔ pid ∈ ps.map Proceso.pid := by
  rw [ne_eq, buscarProceso_none]
  simp

theorem buscar_soloSwap (ps : List (Proceso cfg)) (pid : ℤ) :
    buscarProceso (ps.map soloMetricasSwap) pid = (buscarProceso ps pid).map soloMetricasSwap := by
  rw [buscarProceso, List.find?_map]
  rfl

theorem entradas_de_procesos {p q : Proceso cfg} (h : procesos m' = procesos m)
    (hp : buscarProceso m.diccionarioProcesos pid = some p)
    (hq : buscarProceso m'.diccionarioProcesos pid = some q) : q.entradas = p.entradas := by
  have hb := congrArg (fun ps => buscarProceso ps pid) h
  simp only [procesos, buscar_soloSwap, hp, hq, Option.map_some, Option.some.injEq] at hb
  have hent : (soloMetricasSwap q).entradas = (soloMetricasSwap p).entradas :=
    congrArg Proceso.entradas hb
  exact hent

theorem buscar_quitar {ps : List (Proceso cfg)} {otro : ℤ} (hne : pid ≠ otro) :
    buscarProceso (quitarProceso ps otro) pid = buscarProceso ps pid := by
  rw [buscarProceso, quitarProceso, List.find?_filter]
  congr 1
  funext p
  by_cases hp : p.pid = pid
  · simp [hp, hne]
  · simp [hp]

/-- Only `FINALIZAR_PROCESO` ends a process. -/
theorem viva_efecto (hef : Efecto env m pet m') (hfin : pet ≠ .finalizarProceso pid)
    (h : buscarProceso m.diccionarioProcesos pid ≠ none) :
    buscarProceso m'.diccionarioProcesos pid ≠ none := by
  have hprocesos : procesos m' = procesos m → buscarProceso m'.diccionarioProcesos pid ≠ none := by
    intro hp
    rw [viva_iff] at h ⊢
    rwa [← pids_soloSwap, ← procesos, hp, procesos, pids_soloSwap]
  cases hef with
  | quieto ha hp => exact hprocesos hp
  | escritura hcopia hlargo ha hp => exact hprocesos hp
  | alta inst hcabe =>
    rename_i nuevo tam largo path
    have hpid := pid_crearProceso cfg m.almacen.bitmapMarcos nuevo tam inst
    rw [viva_iff] at h ⊢
    by_cases heq : pid = nuevo
    · simp [guardarProceso, hpid, heq]
    · obtain ⟨p, hp, rfl⟩ := List.mem_map.mp h
      apply List.mem_map_of_mem
      apply List.mem_cons_of_mem
      apply List.mem_filter.mpr
      simpa [hpid] using ⟨hp, heq⟩
  | baja hp =>
    rename_i otro p
    have hne : pid ≠ otro := by
      rintro rfl
      exact hfin rfl
    rwa [buscar_quitar hne]
  | suspension hp =>
    rw [viva_iff] at h ⊢
    simpa only [conPaginas, conProceso, conAlmacen, pids_modificar] using h
  | desuspension hp hcabe =>
    rw [viva_iff] at h ⊢
    simpa only [conPaginas, conProceso, conAlmacen, pids_modificar] using h

end Procesos

section Recorridos

theorem liberarTablas_almacen (a : Almacen) (p : Proceso cfg) :
    (liberarTablasProceso cfg a p.tablaNivel1).memoriaUsuario = a.memoriaUsuario ∧
      (liberarTablasProceso cfg a p.tablaNivel1).archivoSwap = a.archivoSwap := by
  rw [liberarTablas_eq]
  generalize p.entradas = es
  induction es generalizing a with
  | nil => exact ⟨rfl, rfl⟩
  | cons e es ih =>
    obtain ⟨h₁, h₂⟩ := ih (liberarEntrada a e)
    have hpaso : (liberarEntrada a e).memoriaUsuario = a.memoriaUsuario ∧
        (liberarEntrada a e).archivoSwap = a.archivoSwap := by
      unfold liberarEntrada
      split
      · exact ⟨rfl, rfl⟩
      · split <;> exact ⟨rfl, rfl⟩
    exact ⟨h₁.trans hpaso.1, h₂.trans hpaso.2⟩

/-- The rest of the entries, when those of one process are set apart. -/
abbrev otrasEntradas (m : Memoria cfg) (pid : ℤ) : Multiset EntradaTabla :=
  todasEntradas (quitarProceso m.diccionarioProcesos pid)

theorem contenido_suspenderPaginas {p : Proceso cfg}
    (hn : (m.diccionarioProcesos.map Proceso.pid).Nodup)
    (hp : buscarProceso m.diccionarioProcesos pid = some p)
    (h : SuspensionSana cfg env.swap ⟨m.almacen, p.metricas, 0⟩ p.entradas (otrasEntradas m pid)) :
    let m' := conPaginas m (suspenderPaginas env m.almacen p)
    InvContenido cfg m'.almacen (todasEntradas m'.diccionarioProcesos) ∧
      ∀ otro k, paginaLogica m' otro k = paginaLogica m otro k := by
  have hpid := (buscarProceso_some hp).2
  have hresto := (suspenderPaginas_resto env m.almacen p).1
  obtain ⟨ha, hfila, -⟩ := suspenderPaginas_eq env m.almacen p
  obtain ⟨hinv, hmias, hotras⟩ := contenido_suspenderTodo h
  intro m'
  constructor
  · simp only [m', conPaginas, conProceso, conAlmacen]
    rw [todasEntradas_modificar hn hp (hresto.trans hpid), ha, hfila]
    exact hinv
  · apply paginaLogica_conPaginas hp hresto
    · rw [ha, hfila]
      exact hmias
    · intro e he
      rw [ha]
      exact hotras e he

theorem contenido_desuspenderPaginas {p : Proceso cfg}
    (hp : buscarProceso m.diccionarioProcesos pid = some p)
    (h : DesuspensionSana cfg env.swap m.almacen.archivoSwap ⟨m.almacen, p.metricas, 0⟩ p.entradas
      (otrasEntradas m pid)) :
    let m' := conPaginas m (desuspenderPaginas env m.almacen p)
    m'.almacen.archivoSwap = m.almacen.archivoSwap ∧
      ∀ otro k, paginaLogica m' otro k = paginaLogica m otro k := by
  have hresto := (desuspenderPaginas_resto env m.almacen p).1
  obtain ⟨ha, hfila, -⟩ := desuspenderPaginas_eq env m.almacen p
  obtain ⟨harch, hmias, hotras⟩ := contenido_desuspenderTodo h
  intro m'
  constructor
  · simp only [m', conPaginas, conProceso, conAlmacen]
    rw [ha]
    exact harch
  · apply paginaLogica_conPaginas hp hresto
    · rw [ha, hfila]
      exact hmias
    · intro e he
      rw [ha]
      exact hotras e he

end Recorridos

section Invariante

/-- The invariant of these runs. -/
structure InvPrivada (m : Memoria cfg) : Prop where
  base : Invariante m
  contenido : InvContenido cfg m.almacen (todasEntradas m.diccionarioProcesos)
  offsets : ∀ e ∈ todasEntradas m.diccionarioProcesos, SlotCabe cfg e.posicionSwap

theorem suspension_sana {p : Proceso cfg} (h : InvPrivada m)
    (hp : buscarProceso m.diccionarioProcesos pid = some p) (hswap : env.SinFallas cfg)
    (hcabe : ∀ e ∈
        todasEntradas (conPaginas m (suspenderPaginas env m.almacen p)).diccionarioProcesos,
      SlotCabe cfg e.posicionSwap) :
    SuspensionSana cfg env.swap ⟨m.almacen, p.metricas, 0⟩ p.entradas (otrasEntradas m pid) := by
  have hpid := (buscarProceso_some hp).2
  have hresto := (suspenderPaginas_resto env m.almacen p).1
  obtain ⟨-, hfila, -⟩ := suspenderPaginas_eq env m.almacen p
  refine ⟨todasEntradas_separar h.base.pids hp ▸ h.contenido, ?_, ?_⟩
  · intro n hn
    obtain ⟨habre, hbytes⟩ := hswap (0 + n)
    exact ⟨hbytes, Or.inl habre⟩
  · intro slot hslot
    have hescribe : ∀ n < p.entradas.countP EntradaTabla.presente,
        (env.swap (0 + n)).Escribe cfg := by
      intro n _
      obtain ⟨habre, hbytes⟩ := hswap (0 + n)
      exact ⟨hbytes, Or.inl habre⟩
    obtain ⟨e, he, heq⟩ := tomarSlots_salen (r := ⟨m.almacen, p.metricas, 0⟩) hescribe slot hslot
    rw [← heq]
    apply hcabe
    rw [← Multiset.mem_coe]
    simp only [conPaginas, conProceso, conAlmacen]
    rw [todasEntradas_modificar h.base.pids hp (hresto.trans hpid), hfila]
    exact Multiset.mem_add.mpr (Or.inl he)

theorem desuspension_sana {p : Proceso cfg} (h : InvPrivada m)
    (hp : buscarProceso m.diccionarioProcesos pid = some p) (hswap : env.SinFallas cfg) :
    DesuspensionSana cfg env.swap m.almacen.archivoSwap ⟨m.almacen, p.metricas, 0⟩ p.entradas
      (otrasEntradas m pid) := by
  refine ⟨todasEntradas_separar h.base.pids hp ▸ h.base.entradas, rfl, fun n _ => hswap (0 + n), ?_⟩
  intro e he hen
  have hmem : e ∈ todasEntradas m.diccionarioProcesos :=
    List.mem_flatMap.mpr ⟨p, (buscarProceso_some hp).1, he⟩
  have hs : e.posicionSwap ≠ -1 := by
    have : e.presente = false ∧ e.posicionSwap ≠ -1 := by simpa [EntradaTabla.enSwap] using hen
    exact this.2
  exact ⟨h.offsets e hmem, h.contenido.archivo e hmem hs⟩

theorem archivo_efecto (h : InvPrivada m) (hfresco : PidFresco m pet) (hef : Efecto env m pet m')
    (hbien : SinErrores m env pet m') :
    ∀ e ∈ todasEntradas m'.diccionarioProcesos, e.posicionSwap ≠ -1 →
      EnArchivo cfg m'.almacen.archivoSwap e.posicionSwap := by
  obtain ⟨hswap, hcabe⟩ := hbien
  have higuales : procesos m' = procesos m → m'.almacen.archivoSwap = m.almacen.archivoSwap →
      ∀ e ∈ todasEntradas m'.diccionarioProcesos, e.posicionSwap ≠ -1 →
        EnArchivo cfg m'.almacen.archivoSwap e.posicionSwap := by
    intro hp ha
    have htodas : todasEntradas m'.diccionarioProcesos = todasEntradas m.diccionarioProcesos := by
      rw [← todasEntradas_soloSwap, ← todasEntradas_soloSwap m.diccionarioProcesos]
      exact congrArg _ hp
    rw [htodas, ha]
    exact h.contenido.archivo
  cases hef with
  | quieto ha hp => exact higuales hp (by rw [ha])
  | escritura hcopia hlargo ha hp => exact higuales hp (by rw [ha])
  | alta inst hcabe' =>
    rename_i nuevo tam largo path
    obtain ⟨-, vacias, hfila⟩ := crearProceso_eq nuevo inst hcabe'
    have hpid := pid_crearProceso cfg m.almacen.bitmapMarcos nuevo tam inst
    intro e he hs
    rw [← Multiset.mem_coe] at he
    simp only [guardar_fresco (hpid.symm ▸ hfresco), todasEntradas_cons, hfila] at he
    rcases Multiset.mem_add.mp he with he | he
    · rcases List.mem_append.mp (Multiset.mem_coe.mp he) with he | he
      · obtain ⟨i, -, rfl⟩ := List.mem_map.mp he
        exact absurd rfl hs
      · rw [List.eq_of_mem_replicate he] at hs
        exact absurd rfl hs
    · exact h.contenido.archivo e he hs
  | baja hp =>
    rename_i otro p
    intro e he hs
    simp only [(liberarTablas_almacen m.almacen p).2]
    apply h.contenido.archivo e _ hs
    rw [todasEntradas_separar h.base.pids hp]
    exact Multiset.mem_add.mpr (Or.inr he)
  | suspension hp =>
    exact (contenido_suspenderPaginas h.base.pids hp (suspension_sana h hp hswap hcabe)).1.archivo
  | desuspension hp hcabe' =>
    rename_i otro p
    have hpid := (buscarProceso_some hp).2
    have hresto := (desuspenderPaginas_resto env m.almacen p).1
    obtain ⟨-, hfila, -⟩ := desuspenderPaginas_eq env m.almacen p
    intro e he hs
    rw [(contenido_desuspenderPaginas hp (desuspension_sana h hp hswap)).1]
    apply h.contenido.archivo e _ hs
    rw [← Multiset.mem_coe] at he
    simp only [conPaginas, conProceso, conAlmacen] at he
    rw [todasEntradas_modificar h.base.pids hp (hresto.trans hpid), hfila] at he
    rw [todasEntradas_separar h.base.pids hp]
    rcases Multiset.mem_add.mp he with he | he
    · exact Multiset.mem_add.mpr (Or.inl ((mem_desuspenderTodo he).resolve_left hs))
    · exact Multiset.mem_add.mpr (Or.inr he)

theorem privada_efecto (h : InvPrivada m) (hfresco : PidFresco m pet) (hef : Efecto env m pet m')
    (hbien : SinErrores m env pet m') : InvPrivada m' := by
  have hbase := invariante_efecto h.base hfresco hef
  exact ⟨hbase, ⟨hbase.entradas, archivo_efecto h hfresco hef hbien⟩, hbien.2⟩

theorem privada_de_alcanzable (h : AlcanzableCon SinErrores m) : InvPrivada m := by
  induction h with
  | inicial =>
    exact ⟨invariante_inicial, ⟨invariante_inicial.entradas, by simp [inicial, todasEntradas]⟩,
      by simp [inicial, todasEntradas]⟩
  | paso hm hp ih =>
    obtain ⟨env, pet, envios, hfresco, hat, hbien⟩ := hp
    exact privada_efecto ih hfresco (efecto_de_atender ih.base.pids hat) hbien

end Invariante

section Paginas

/-- Every request but a write leaves every page of a process that lives on. -/
theorem pagina_efecto (h : InvPrivada m) (hfresco : PidFresco m pet) (hef : Efecto env m pet m')
    (hbien : SinErrores m env pet m')
    (hpet : ∀ pid' marco offset tamanio contenido,
      pet ≠ .escribirMemoria pid' marco offset tamanio contenido)
    (hviva : buscarProceso m.diccionarioProcesos pid ≠ none)
    (hviva' : buscarProceso m'.diccionarioProcesos pid ≠ none) (k : ℕ) :
    paginaLogica m' pid k = paginaLogica m pid k := by
  obtain ⟨hswap, hcabe⟩ := hbien
  obtain ⟨p, hp⟩ := Option.ne_none_iff_exists'.mp hviva
  obtain ⟨q, hq⟩ := Option.ne_none_iff_exists'.mp hviva'
  cases hef with
  | quieto ha hpr =>
    exact paginaLogica_congr (by rw [ha]) (by rw [ha]) hp hq (entradas_de_procesos hpr hp hq)
  | escritura hcopia hlargo ha hpr => exact absurd rfl (hpet _ _ _ _ _)
  | alta inst hcabe' =>
    rename_i nuevo tam largo path
    have hpid := pid_crearProceso cfg m.almacen.bitmapMarcos nuevo tam inst
    have hne : nuevo ≠ pid := by
      rintro rfl
      exact hviva hfresco
    have hq' : buscarProceso m.diccionarioProcesos pid = some q := by
      simpa [guardar_fresco (hpid.symm ▸ hfresco), buscarProceso, hpid, hne] using hq
    refine paginaLogica_congr rfl rfl hp hq ?_
    rw [Option.some.inj (hq'.symm.trans hp)]
  | baja hpo =>
    rename_i otro po
    have hne : pid ≠ otro := by
      rintro rfl
      apply hviva'
      rw [buscarProceso_none]
      intro r hr
      simpa using (List.mem_filter.mp hr).2
    obtain ⟨hmem, harch⟩ := liberarTablas_almacen m.almacen po
    refine paginaLogica_congr hmem harch hp hq ?_
    rw [buscar_quitar hne, hp] at hq
    rw [Option.some.inj hq]
  | suspension hpo =>
    exact (contenido_suspenderPaginas h.base.pids hpo (suspension_sana h hpo hswap hcabe)).2 pid k
  | desuspension hpo hcabe' =>
    exact (contenido_desuspenderPaginas hpo (desuspension_sana h hpo hswap)).2 pid k

/-- The content of a page after an accepted request: the bytes of a write that fall in its
frame are laid over it. -/
def trasEscritura (cfg : Config) (pet : Peticion) (e : EntradaTabla) (xs : List Byte) : List Byte :=
  match pet with
  | .escribirMemoria _ marco offset tamanio contenido =>
    if e.presente then
      solapar xs (e.numeroMarco * cfg.tamPagina).toNat (direccionFisica cfg marco offset).toNat
        (contenido.take tamanio.toNat)
    else xs
  | _ => xs

theorem contenido_escritura {a : Almacen} {e : EntradaTabla} {xs ys : List Byte} {i : ℕ}
    (hdentro : i + ys.length ≤ a.memoriaUsuario.length) (hxs : contenidoLogico cfg a e = some xs) :
    contenidoLogico cfg { a with memoriaUsuario := escribirRango a.memoriaUsuario i ys } e =
      some (if e.presente then solapar xs (e.numeroMarco * cfg.tamPagina).toNat i ys else xs) := by
  by_cases hp : e.presente = true
  · rw [contenidoLogico_presente hp, Option.some.injEq] at hxs
    rw [contenidoLogico_presente hp, if_pos hp, ← hxs]
    exact congrArg some (leer_escribir_solapar hdentro)
  · rw [if_neg hp, ← hxs]
    apply contenidoLogico_congr
    · intro hp'
      exact absurd hp' hp
    · intro _
      rfl

theorem paginaLogica_de_entrada {k : ℕ} {e : EntradaTabla} (h : EntradaDe m pid k e) :
    paginaLogica m pid k = contenidoLogico cfg m.almacen e := by
  obtain ⟨p, hp, he⟩ := h
  rw [paginaLogica, hp, Option.bind_some, he, Option.bind_some]

/-- A write changes the pages its range falls on, and a rejected one none. -/
theorem pagina_escritura (hinv : Invariante m) {pid' marco offset tamanio : ℤ}
    {contenido : List Byte} {k : ℕ} {e : EntradaTabla} {xs : List Byte}
    (hat : atenderPostHandshake env m (.escribirMemoria pid' marco offset tamanio contenido) =
      some (envios, m'))
    (he : EntradaDe m pid k e) (hxs : contenidoLogico cfg m.almacen e = some xs)
    (hviva' : buscarProceso m'.diccionarioProcesos pid ≠ none) :
    paginaLogica m' pid k =
      some (if envios = responder OpCode.operacionEscrituraOk.codigo then
        trasEscritura cfg (.escribirMemoria pid' marco offset tamanio contenido) e xs else xs) := by
  obtain ⟨p, hp, hek⟩ := he
  obtain ⟨q, hq⟩ := Option.ne_none_iff_exists'.mp hviva'
  simp only [atenderPostHandshake] at hat
  split at hat
  · cases hat
  · rename_i hlargo
    rcases escritura_cases hinv.pids hat with ⟨henv, ha, hpr, -⟩ | ⟨henv, hc, ha, hpr⟩
    · have hdistinto : envios ≠ responder OpCode.operacionEscrituraOk.codigo := by
        rw [henv]
        decide
      rw [if_neg hdistinto, ← hxs, ← paginaLogica_de_entrada ⟨p, hp, hek⟩]
      exact paginaLogica_congr (by rw [ha]) (by rw [ha]) hp hq (entradas_de_procesos hpr hp hq)
    · obtain ⟨h₀, h₁, h₂⟩ := hc
      have hfila := entradas_de_procesos hpr hp hq
      rw [if_pos henv, paginaLogica_de_entrada ⟨q, hq, hfila ▸ hek⟩, ha]
      apply contenido_escritura _ hxs
      rw [hinv.entradas.memoria, List.length_take]
      omega

theorem pagina_solo_por_escritura (h : AlcanzableCon SinErrores m) (hfresco : PidFresco m pet)
    (hat : atenderPostHandshake env m pet = some (envios, m')) (hbien : SinErrores m env pet m') :
    (∀ pid, buscarProceso m.diccionarioProcesos pid ≠ none → pet ≠ .finalizarProceso pid →
      buscarProceso m'.diccionarioProcesos pid ≠ none) ∧
    ∀ pid k e xs, EntradaDe m pid k e → contenidoLogico cfg m.almacen e = some xs →
      buscarProceso m'.diccionarioProcesos pid ≠ none →
      paginaLogica m' pid k =
        some (if envios = responder OpCode.operacionEscrituraOk.codigo then
          trasEscritura cfg pet e xs else xs) := by
  have hinv := privada_de_alcanzable h
  have hef := efecto_de_atender hinv.base.pids hat
  constructor
  · intro pid hviva hfin
    exact viva_efecto hef hfin hviva
  · intro pid k e xs he hxs hviva'
    by_cases hpet : ∃ pid' marco offset tamanio contenido,
        pet = .escribirMemoria pid' marco offset tamanio contenido
    · obtain ⟨pid', marco, offset, tamanio, contenido, rfl⟩ := hpet
      exact pagina_escritura hinv.base hat he hxs hviva'
    · have hpet' : ∀ pid' marco offset tamanio contenido,
          pet ≠ .escribirMemoria pid' marco offset tamanio contenido := by
        intro pid' marco offset tamanio contenido heq
        exact hpet ⟨_, _, _, _, _, heq⟩
      have hviva : buscarProceso m.diccionarioProcesos pid ≠ none := by
        obtain ⟨p, hp, -⟩ := he
        rw [hp]
        exact Option.some_ne_none p
      have htras : trasEscritura cfg pet e xs = xs := by
        unfold trasEscritura
        split
        · exact absurd rfl (hpet' _ _ _ _ _)
        · rfl
      rw [htras, ite_self, ← hxs, ← paginaLogica_de_entrada he]
      exact pagina_efecto hinv hfresco hef hbien hpet' hviva hviva' k

end Paginas

section Ejemplo

theorem sin_fallas_ejemplo : entornoEjemplo.SinFallas configEjemplo :=
  fun _ => ⟨rfl, (by decide : 4 ≤ 4096)⟩

/-- A process of two pages, just admitted, and a write of four bytes that straddles them. -/
theorem escritura_a_caballo :
    ∃ m m' : Memoria configEjemplo, AlcanzableCon SinErrores m ∧
      EntradaDe m 1 1 ⟨true, 1, -1⟩ ∧
      contenidoLogico configEjemplo m.almacen ⟨true, 1, -1⟩ = some [0, 0, 0, 0] ∧
      atenderPostHandshake entornoEjemplo m (.escribirMemoria 1 0 2 4 [9, 9, 9, 9]) =
        some (responder OpCode.operacionEscrituraOk.codigo, m') ∧
      SinErrores m entornoEjemplo (.escribirMemoria 1 0 2 4 [9, 9, 9, 9]) m' ∧
      buscarProceso m'.diccionarioProcesos 1 ≠ none ∧
      (paginaLogica m' 1 1 ≠ some [0, 0, 0, 0]) := by
  have hm : ∃ m : Memoria configEjemplo,
      ejecutar (inicial configEjemplo) [(entornoEjemplo, .initProc 1 8 0 [])] = some m ∧
      (∀ e ∈ todasEntradas m.diccionarioProcesos, SlotCabe configEjemplo e.posicionSwap) ∧
      EntradaDe m 1 1 ⟨true, 1, -1⟩ ∧
      contenidoLogico configEjemplo m.almacen ⟨true, 1, -1⟩ = some [0, 0, 0, 0] ∧
      (atenderPostHandshake entornoEjemplo m (.escribirMemoria 1 0 2 4 [9, 9, 9, 9])).any (fun r =>
        r.1 = responder OpCode.operacionEscrituraOk.codigo ∧
        (∀ e ∈ todasEntradas r.2.diccionarioProcesos, SlotCabe configEjemplo e.posicionSwap) ∧
        (buscarProceso r.2.diccionarioProcesos 1).isSome ∧
        paginaLogica r.2 1 1 ≠ some [0, 0, 0, 0]) = true :=
    ⟨_, rfl, by decide, ⟨_, rfl, rfl⟩, by decide, by decide +kernel⟩
  obtain ⟨m, hrun, hcabe, he, hxs, hat⟩ := hm
  obtain ⟨⟨envios, m'⟩, hat, hr⟩ := (Option.any_eq_true _ _).mp hat
  simp only [decide_eq_true_eq] at hr
  obtain ⟨rfl, hcabe', hviva, hcambia⟩ := hr
  exact ⟨m, m', alcanzableCon_paso .inicial hrun ⟨sin_fallas_ejemplo, hcabe⟩, he, hxs, hat,
    ⟨sin_fallas_ejemplo, hcabe'⟩, Option.isSome_iff_ne_none.mp hviva, hcambia⟩

/-- The bytes 2 to 5 of memory: the last two of the first page and the first two of the next. -/
theorem pagina_solo_por_escritura_ejemplo :
    ∃ m m' : Memoria configEjemplo,
      atenderPostHandshake entornoEjemplo m (.escribirMemoria 1 0 2 4 [9, 9, 9, 9]) =
        some (responder OpCode.operacionEscrituraOk.codigo, m') ∧
      paginaLogica m' 1 1 = some [9, 9, 0, 0] := by
  obtain ⟨m, m', halc, he, hxs, hat, hbien, hviva, -⟩ := escritura_a_caballo
  have hfresco : PidFresco m (.escribirMemoria 1 0 2 4 [9, 9, 9, 9]) := trivial
  refine ⟨m, m', hat, ?_⟩
  rw [(pagina_solo_por_escritura halc hfresco hat hbien).2 1 1 _ _ he hxs hviva]
  decide +kernel

/-- A write whose range lies in the frame that a page holds. -/
def EscribeEnMarco (cfg : Config) (pet : Peticion) (e : EntradaTabla) : Prop :=
  ∃ pid marco offset tamanio contenido, pet = .escribirMemoria pid marco offset tamanio contenido ∧
    e.presente = true ∧ e.numeroMarco * cfg.tamPagina ≤ direccionFisica cfg marco offset ∧
    direccionFisica cfg marco offset + tamanio ≤ e.numeroMarco * cfg.tamPagina + cfg.tamPagina

theorem cambia_fuera_de_marco :
    ¬ ∀ (m m' : Memoria configEjemplo) (env : Entorno) (pet : Peticion) (envios : List Envio)
      (pid : ℤ) (k : ℕ) (e : EntradaTabla) (xs : List Byte),
      AlcanzableCon SinErrores m → PidFresco m pet →
      atenderPostHandshake env m pet = some (envios, m') → SinErrores m env pet m' →
      EntradaDe m pid k e → contenidoLogico configEjemplo m.almacen e = some xs →
      buscarProceso m'.diccionarioProcesos pid ≠ none →
      paginaLogica m' pid k ≠ some xs → EscribeEnMarco configEjemplo pet e := by
  intro h
  obtain ⟨m, m', halc, he, hxs, hat, hbien, hviva, hcambia⟩ := escritura_a_caballo
  have hfresco : PidFresco m (.escribirMemoria 1 0 2 4 [9, 9, 9, 9]) := trivial
  obtain ⟨pid, marco, offset, tamanio, contenido, hpet, -, hdesde, -⟩ :=
    h m m' _ _ _ 1 1 _ _ halc hfresco hat hbien he hxs hviva hcambia
  cases hpet
  revert hdesde
  decide

end Ejemplo

end MemoriaPrivada

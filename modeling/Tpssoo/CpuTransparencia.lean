import Tpssoo.CpuRafagas

/-!
# TLB and cache are transparent

A burst over any tables represents the machine that has frames only and asks Memoria for
every access. Two bursts that start from the same frames, one with tables and one without,
therefore agree.
-/
namespace CpuTransparencia

open EnterosC RangosBytes CacheDiferida MemoriaEstado MemoriaTraduccion MemoriaPeticiones
  MemoriaEfectos MemoriaInvariante MemoriaAdmision CpuEstado CpuTlb CpuCache CpuAccesos CpuMemoria
  CpuCoherencia CpuRafagas ArbolRadix

variable {cfg : Config} {cpu : Cpu} {pid : ℤ} {p : Proceso cfg} {ps : List (Proceso cfg)}

/-- The pages that the page table of a process can address. -/
def direccionable (cfg : Config) (pagina : ℤ) : Prop := pagina < cfg.paginasDireccionables

/-- An address that division does not fold into page 0 from below, nor the page table into
a lower page. -/
def Directa (p : Proceso cfg) (direccionLogica : ℤ) : Prop :=
  (0 ≤ direccionLogica ∨ direccionLogica ≤ -cfg.tamPagina) ∧
    (Acepta p direccionLogica → direccionable cfg (obtenerPagina cfg direccionLogica))

instance (dl : ℤ) : Decidable (Directa p dl) :=
  inferInstanceAs (Decidable ((_ ∨ _) ∧ (Acepta p dl → obtenerPagina cfg dl <
    cfg.paginasDireccionables)))

/-- The machine without tables, on the frames alone: Memoria translates every access. -/
def accesoDirecto (p : Proceso cfg) (v : ℕ → List Byte) :
    Acceso → Option (Resultado × (ℕ → List Byte))
  | .read dl tamanio =>
    if ExcedeLimite cfg dl tamanio then some (.segmentationFault, v)
    else
      match traducir p dl with
      | none => none
      | some (.traduccionOk f) =>
        (copiarDePagina cfg (v f.toNat) (obtenerOffset cfg dl) tamanio).map fun datos =>
          (.hecho datos, v)
      | some _ => some (.segmentationFault, v)
  | .write dl datos =>
    if ExcedeLimite cfg dl (aInt datos.length) then some (.segmentationFault, v)
    else
      match traducir p dl with
      | none => none
      | some (.traduccionOk f) =>
        (copiarAPagina cfg (v f.toNat) (obtenerOffset cfg dl) (aInt datos.length) datos).map
          fun contenido => (.hecho [], Function.update v f.toNat contenido)
      | some _ => some (.segmentationFault, v)

/-- Tables of a burst over frames that together stand for the frames `v`, and the processes
`ps` of Memoria up to their metrics. -/
structure Representa (pid : ℤ) (p : Proceso cfg) (ps : List (Proceso cfg)) (s : EstadoCpu cfg)
    (v : ℕ → List Byte) : Prop where
  sana : RafagaSana pid p (direccionable cfg) s
  procesos : procesos s.memoria = ps
  refleja : Refleja (lineas s.cache) (vista s.memoria) v

/-- The two machines end an access alike, or are undefined together. -/
def Acompana (pid : ℤ) (p : Proceso cfg) (ps : List (Proceso cfg))
    (r : Option (Resultado × EstadoCpu cfg))
    (a : Option (Resultado × (ℕ → List Byte))) : Prop :=
  Option.Rel (fun x y => x.1 = y.1 ∧ Representa pid p ps x.2 y.2) r a

section Lineas

variable {s : EstadoCpu cfg} {v : ℕ → List Byte} {pagina marco : ℤ} {i : ℕ} {e e' : EntradaCache}

theorem set_igual {α : Type*} {xs : List α} {x : α} (h : xs[i]? = some x) : xs.set i x = xs := by
  obtain ⟨hlt, rfl⟩ := List.getElem?_eq_some_iff.mp h
  exact List.set_getElem_self hlt

theorem Representa.integra (h : Representa pid p ps s v) : Integra s.memoria :=
  Integra.de_invariante h.sana.invariante

/-- A page that missed has no line under its frame. -/
theorem ausente (h : Representa pid p ps s v)
    (hmapeo : Mapeo cfg pid (TraducidaEn p (direccionable cfg)) pid pagina marco)
    (hbusca : obtenerEntradaCache s.cache pid pagina = none) (j : ℕ) (l : Linea ℕ (List Byte))
    (hl : (lineas s.cache)[j]? = some (some l)) : l.clave ≠ marco.toNat := by
  obtain ⟨e, he, hoc, rfl⟩ := linea_some hl
  have hmem := List.mem_of_getElem? he
  obtain ⟨hpid, ⟨htrad, hdir⟩, hmarco, -⟩ := (h.sana.cache.entradas e hmem hoc).mapeo
  obtain ⟨-, ⟨htrad', hdir'⟩, hmarco', -⟩ := hmapeo
  obtain ⟨q, hq, hpq⟩ := h.sana.proceso
  intro heq
  dsimp only at heq
  have hmismo : e.marco = marco := by omega
  rw [hmismo] at htrad
  exact obtenerEntrada_none hbusca hmem hoc hpid
    (traducida_unica h.sana.invariante hq hpq htrad htrad' hdir hdir')

/-- A page that hit: its entry holds what the frame stands for. -/
theorem presente (h : Representa pid p ps s v)
    (hbusca : obtenerEntradaCache s.cache pid pagina = some i) :
    ∃ e, s.cache.entradas[i]? = some e ∧ e.ocupado = true ∧ Traducida p pagina e.marco ∧
      EntradaSana cfg pid (TraducidaEn p (direccionable cfg)) e ∧
        v e.marco.toNat = e.contenido := by
  obtain ⟨e, he, hoc, -, hpag⟩ := obtenerEntrada_some hbusca
  have hsana := h.sana.cache.entradas e (List.mem_of_getElem? he) hoc
  have htrad := hsana.mapeo.2.1.1
  rw [hpag] at htrad
  exact ⟨e, he, hoc, htrad, hsana, h.refleja.lineas i _ (linea_entrada he hoc)⟩

/-- The frame of a page that missed is read from user memory. -/
theorem vista_ausente (h : Representa pid p ps s v)
    (hmapeo : Mapeo cfg pid (TraducidaEn p (direccionable cfg)) pid pagina marco)
    (hbusca : obtenerEntradaCache s.cache pid pagina = none) :
    vista s.memoria marco.toNat = v marco.toNat :=
  leer_ausente h.refleja (ausente h hmapeo hbusca)

/-- The entry that hit, changed through the pointer. -/
theorem representa_conEntrada {v' : ℕ → List Byte} (h : Representa pid p ps s v)
    (he : EntradaSana cfg pid (TraducidaEn p (direccionable cfg)) e)
    (hrefleja : Refleja ((lineas s.cache).set i (linea e)) (vista s.memoria) v') :
    Representa pid p ps (conEntrada s i e) v' where
  sana := sana_conEntrada h.sana he
  procesos := h.procesos
  refleja := by
    have hl : lineas (conEntrada s i e).cache = (lineas s.cache).set i (linea e) := List.map_set
    rw [hl]
    exact hrefleja

/-- Requests that left the stores alone, and a TLB of the burst. -/
theorem Representa.quieta {m : Memoria cfg} {t : Tlb} (h : Representa pid p ps s v)
    (hm : Quieta s.memoria m) (ht : TodoTlb (Mapeo cfg pid (TraducidaEn p (direccionable cfg))) t) :
    Representa pid p ps ⟨t, s.cache, m⟩ v where
  sana := h.sana.con (hm.conMarcos h.integra.largo) ht h.sana.cache
  procesos := hm.procesos.trans h.procesos
  refleja := by
    change Refleja (lineas s.cache) (vista m) v
    rw [(hm.conMarcos h.integra.largo).marcos]
    exact h.refleja

/-- A page that missed, brought in with some content. -/
theorem representa_insertar {m : Memoria cfg} {t : Tlb} (h : Representa pid p ps s v)
    (hmapeo : Mapeo cfg pid (TraducidaEn p (direccionable cfg)) pid pagina marco)
    (hbusca : obtenerEntradaCache s.cache pid pagina = none)
    (ht : TodoTlb (Mapeo cfg pid (TraducidaEn p (direccionable cfg))) t)
    (hm : Quieta s.memoria m) (halg : cpu.algoritmoCache ≠ .otro) {contenido : List Byte}
    (modificado : Bool) (hlargo : contenido.length = cfg.tamPagina)
    (hlimpio : modificado = false → v marco.toNat = contenido)
    (hne : s.cache.entradas = [] → modificado = false) :
    ∃ cache m', insertarEnCache cpu s.cache m pid pagina marco contenido modificado =
        some (cache, m') ∧
      Representa pid p ps ⟨t, cache, m'⟩ (Function.update v marco.toNat contenido) := by
  have hquieta := h.quieta hm ht
  by_cases hvacia : s.cache.entradas = []
  · refine ⟨s.cache, m, if_pos hvacia, ?_⟩
    rw [← hlimpio (hne hvacia), Function.update_eq_self]
    exact hquieta
  · have hnueva : EntradaSana cfg pid (TraducidaEn p (direccionable cfg))
        ⟨true, pid, pagina, contenido, true, modificado, marco⟩ := ⟨hmapeo, hlargo⟩
    obtain ⟨i, o, c', m', hins, ho, hlineas, hsana, -, hcon⟩ :=
      insertar_ok hquieta.integra h.sana.cache hvacia (Or.inl halg) hnueva
    refine ⟨c', m', hins, hquieta.sana.con hcon ht hsana, hcon.procesos.trans hquieta.procesos, ?_⟩
    change Refleja (lineas c') (vista m') _
    rw [hlineas, hcon.marcos]
    apply refleja_reemplazar hquieta.refleja ho (ausente h hmapeo hbusca)
    intro hmod
    rw [← hlimpio hmod]
    exact vista_ausente hquieta hmapeo hbusca

end Lineas

section Accesos

variable {s : EstadoCpu cfg} {v : ℕ → List Byte} {dl tamanio : ℤ} {datos : List Byte}

theorem directo_read {f : ℤ} (hexc : ¬ ExcedeLimite cfg dl tamanio)
    (h : traducir p dl = some (.traduccionOk f)) :
    accesoDirecto p v (.read dl tamanio) =
      (copiarDePagina cfg (v f.toNat) (obtenerOffset cfg dl) tamanio).map fun datos =>
        (.hecho datos, v) := by
  rw [accesoDirecto, if_neg hexc, h]

theorem directo_write {f : ℤ} (hexc : ¬ ExcedeLimite cfg dl (aInt datos.length))
    (h : traducir p dl = some (.traduccionOk f)) :
    accesoDirecto p v (.write dl datos) =
      (copiarAPagina cfg (v f.toNat) (obtenerOffset cfg dl) (aInt datos.length) datos).map
        fun contenido => (.hecho [], Function.update v f.toNat contenido) := by
  rw [accesoDirecto, if_neg hexc, h]

/-- A refused address is a segmentation fault for both instructions. -/
theorem directo_refutado {r : ResultadoTraduccion} {acc : Acceso}
    (htrad : traducir p acc.direccionLogica = some r) (hr : ∀ f, r ≠ .traduccionOk f) :
    accesoDirecto p v acc = some (.segmentationFault, v) := by
  cases acc with
  | read dl tamanio =>
    change traducir p dl = some r at htrad
    rw [accesoDirecto, htrad]
    cases r with
    | traduccionOk f => exact absurd rfl (hr f)
    | paginaFueraDeRango => exact ite_self _
    | errorTraduccion => exact ite_self _
    | marcoNoPresente => exact ite_self _
  | write dl datos =>
    change traducir p dl = some r at htrad
    rw [accesoDirecto, htrad]
    cases r with
    | traduccionOk f => exact absurd rfl (hr f)
    | paginaFueraDeRango => exact ite_self _
    | errorTraduccion => exact ite_self _
    | marcoNoPresente => exact ite_self _

theorem read_representa (halg : cpu.algoritmoCache ≠ .otro) (h : Representa pid p ps s v)
    (hdir : Directa p dl) (tamanio : ℤ) :
    Acompana pid p ps (manejarInstruccionRead cpu s pid dl tamanio)
      (accesoDirecto p v (.read dl tamanio)) := by
  by_cases hexc : ExcedeLimite cfg dl tamanio
  · rw [manejarInstruccionRead, accesoDirecto, if_pos hexc, if_pos hexc]
    exact .some ⟨rfl, h⟩
  · cases hbusca : obtenerEntradaCache s.cache pid (obtenerPagina cfg dl) with
    | some i =>
      obtain ⟨e, he, hoc, htrad, hsana, hv⟩ := presente h hbusca
      rw [read_acierto hexc hbusca he,
        directo_read hexc (traducir_de_traducida (acepta_de_traducida htrad hdir.1) htrad), hv]
      cases copiarDePagina cfg e.contenido (obtenerOffset cfg dl) tamanio with
      | none => exact .none
      | some datos =>
        have hsana' : EntradaSana cfg pid (TraducidaEn p (direccionable cfg))
            { e with bitUso := true } :=
          ⟨hsana.mapeo, hsana.largo⟩
        refine .some ⟨rfl, representa_conEntrada h hsana' ?_⟩
        -- a use bit is no part of a line
        have hlinea : (lineas s.cache)[i]? = some (linea { e with bitUso := true }) := by
          rw [lineas, List.getElem?_map, he]
          rfl
        rw [set_igual hlinea]
        exact h.refleja
    | none =>
      rcases marco_casos cpu soloMarca_nada h.sana hdir.2 with
        ⟨marco, s₁, hobt, -, hmapeo, hcache, hquieta, htlb⟩ | ⟨-, hrechazo⟩
      · have htrad := hmapeo.2.1.1
        have hquieta₁ := h.quieta hquieta htlb
        obtain ⟨m, hlee, hlargo, hquieta'⟩ := lectura_sana cpu hquieta₁.integra hmapeo
        have hvista := vista_ausente hquieta₁ hmapeo hbusca
        dsimp only at hvista
        rw [hvista] at hlee hlargo
        obtain ⟨cache, m', hins, hrep⟩ := representa_insertar h hmapeo hbusca htlb
          (hquieta.trans hquieta') halg false hlargo (fun _ => rfl) (fun _ => rfl)
        rw [Function.update_eq_self] at hrep
        rw [← hcache] at hins
        rw [read_falla hexc hbusca hobt hlee hins,
          directo_read hexc (traducir_de_traducida (acepta_de_traducida htrad hdir.1) htrad)]
        cases copiarDePagina cfg (v marco.toNat) (obtenerOffset cfg dl) tamanio with
        | none => exact .none
        | some datos => exact .some ⟨rfl, hrep⟩
      · rw [manejarInstruccionRead, if_neg hexc, hbusca]
        dsimp only
        rcases hrechazo with ⟨r, m', htrad, hr, hobt, hquieta⟩ | ⟨htrad, hobt⟩
        · rw [hobt, directo_refutado htrad hr]
          exact .some ⟨rfl, h.quieta hquieta h.sana.tlb⟩
        · rw [hobt, accesoDirecto, if_neg hexc, htrad]
          exact .none

/-- Without a cache the write goes to the frame. -/
theorem directa_representa (h : Representa pid p ps s v) (hdir : Directa p dl)
    (hexc : ¬ ExcedeLimite cfg dl (aInt datos.length)) (hvacia : s.cache.entradas = []) :
    Acompana pid p ps (manejarInstruccionWrite cpu s pid dl datos)
      (accesoDirecto p v (.write dl datos)) := by
  rcases marco_casos cpu soloMarca_timestamp h.sana hdir.2 with
    ⟨marco, s₁, hobt, -, hmapeo, hcache, hquieta, htlb⟩ | ⟨-, hrechazo⟩
  · have htrad := hmapeo.2.1.1
    have hacepta := acepta_de_traducida htrad hdir.1
    rw [write_directa hexc hvacia hobt, directo_write hexc (traducir_de_traducida hacepta htrad)]
    have hquieta₁ := h.quieta hquieta htlb
    have hlineas : ∀ (i : ℕ) (l : Linea ℕ (List Byte)), (lineas s.cache)[i]? ≠ some (some l) := by
      intro i l
      simp [lineas, hvacia]
    have hvista : vista s₁.memoria = v := respaldo_de_vacia hquieta₁.refleja hlineas
    obtain ⟨-, -, hmarco, hmax⟩ := hmapeo
    obtain ⟨f, rfl⟩ := Int.eq_ofNat_of_zero_le hmarco
    rw [Int.toNat_natCast]
    by_cases htam : 0 ≤ aInt datos.length
    · rcases escribirBytes_copia cpu pid hquieta₁.integra.pids hquieta₁.integra.largo
        (Int.ofNat_lt.mp hmax)
        ⟨Int.tmod_nonneg _ hacepta.2, Int.tmod_lt_of_pos _ (tamPagina_int_pos cfg)⟩
        ⟨htam, (esInt_aInt _).2⟩ (aInt_le (Int.natCast_nonneg _)) (not_lt.mp hexc) with
        ⟨hcopia, hesc⟩ | ⟨contenido, m', hcopia, hesc, hcon⟩
      · rw [hvista] at hcopia
        rw [obtenerOffset, hcopia, hesc]
        exact .none
      · rw [hvista] at hcopia hcon
        rw [obtenerOffset, hcopia, hesc]
        refine .some ⟨rfl, hquieta₁.sana.con hcon htlb (hcache ▸ h.sana.cache),
          hcon.procesos.trans hquieta₁.procesos, ?_⟩
        change Refleja (lineas s₁.cache) (vista m') _
        rw [hcache, hcon.marcos]
        exact refleja_vacia hlineas
    · have hen : ¬ EnPagina cfg (obtenerOffset cfg dl) (aInt datos.length) :=
          fun hen => htam hen.2.1
      rw [escribirBytes_negativo (not_le.mp htam), copiarAPagina, if_neg hen]
      exact .none
  · rw [manejarInstruccionWrite, if_neg hexc, if_neg (not_not.mpr hvacia)]
    rcases hrechazo with ⟨r, m', htrad, hr, hobt, hquieta⟩ | ⟨htrad, hobt⟩
    · rw [hobt, directo_refutado htrad hr]
      exact .some ⟨rfl, h.quieta hquieta h.sana.tlb⟩
    · rw [hobt, accesoDirecto, if_neg hexc, htrad]
      exact .none

theorem write_representa (halg : cpu.algoritmoCache ≠ .otro) (h : Representa pid p ps s v)
    (hdir : Directa p dl) (datos : List Byte) :
    Acompana pid p ps (manejarInstruccionWrite cpu s pid dl datos)
      (accesoDirecto p v (.write dl datos)) := by
  by_cases hexc : ExcedeLimite cfg dl (aInt datos.length)
  · rw [manejarInstruccionWrite, accesoDirecto, if_pos hexc, if_pos hexc]
    exact .some ⟨rfl, h⟩
  · by_cases hvacia : s.cache.entradas = []
    · exact directa_representa h hdir hexc hvacia
    · cases hbusca : obtenerEntradaCache s.cache pid (obtenerPagina cfg dl) with
      | some i =>
        obtain ⟨e, he, hoc, htrad, hsana, hv⟩ := presente h hbusca
        have hentrada := linea_entrada he hoc
        rw [write_acierto hexc hvacia hbusca he,
          directo_write hexc (traducir_de_traducida (acepta_de_traducida htrad hdir.1) htrad), hv]
        cases hcopia : copiarAPagina cfg e.contenido (obtenerOffset cfg dl)
          (aInt datos.length) datos with
        | none => exact .none
        | some contenido =>
          have hsana' : EntradaSana cfg pid (TraducidaEn p (direccionable cfg))
              { e with contenido := contenido, bitModificado := true, bitUso := true } :=
            ⟨hsana.mapeo, length_copiarAPagina hsana.largo hcopia⟩
          refine .some ⟨rfl, representa_conEntrada h hsana' ?_⟩
          have hlinea : linea
              { e with contenido := contenido, bitModificado := true, bitUso := true } =
              some ⟨e.marco.toNat, contenido, true⟩ := if_pos hoc
          rw [hlinea]
          exact refleja_escribir h.refleja hentrada contenido
      | none =>
        rcases traduccion_casos cpu _ h.sana hdir.2 with
          ⟨htrad, hped⟩ | ⟨marco, m, htrad, -, hped, hmarco, hmapeo, hquieta⟩ |
            ⟨r, m, htrad, hr, hped, hquieta⟩
        · rw [manejarInstruccionWrite, if_neg hexc, if_pos hvacia, hbusca, accesoDirecto,
            if_neg hexc,
            htrad]
          dsimp only
          rw [hped]
          exact .none
        · have hquieta₁ := h.quieta hquieta h.sana.tlb
          obtain ⟨m', hlee, hlargo, hquieta'⟩ := lectura_sana cpu hquieta₁.integra hmapeo
          have hvista : vista m marco.toNat = v marco.toNat := vista_ausente hquieta₁ hmapeo hbusca
          rw [hvista] at hlee hlargo
          rw [write_falla hexc hvacia hbusca hped hmarco hlee, directo_write hexc htrad]
          cases hcopia : copiarAPagina cfg (v marco.toNat) (obtenerOffset cfg dl)
            (aInt datos.length) datos with
          | none => exact .none
          | some contenido =>
            obtain ⟨cache, m'', hins, hrep⟩ := representa_insertar h hmapeo hbusca h.sana.tlb
              (hquieta.trans hquieta') halg true (length_copiarAPagina hlargo hcopia)
              (fun hf => by cases hf) (fun hnil => absurd hnil hvacia)
            rw [Option.bind_some, hins]
            exact .some ⟨rfl, hrep⟩
        · rw [manejarInstruccionWrite, if_neg hexc, if_pos hvacia, hbusca,
            directo_refutado htrad hr]
          dsimp only
          rw [hped]
          exact .some ⟨rfl, h.quieta hquieta h.sana.tlb⟩

theorem acceso_representa (halg : cpu.algoritmoCache ≠ .otro) (h : Representa pid p ps s v)
    {acc : Acceso} (hdir : Directa p acc.direccionLogica) :
    Acompana pid p ps (ejecutarAcceso cpu s pid acc) (accesoDirecto p v acc) := by
  cases acc with
  | read dl tamanio => exact read_representa halg h hdir tamanio
  | write dl datos => exact write_representa halg h hdir datos

end Accesos

section Limpieza

variable {s : EstadoCpu cfg} {v : ℕ → List Byte}

theorem representa_limpia (hm : Invariante s.memoria) (hs : MmuLimpia s) {q : Proceso cfg}
    (hq : buscarProceso s.memoria.diccionarioProcesos pid = some q) (hpq : MismasPaginas p q) :
    Representa pid p (procesos s.memoria) s (vista s.memoria) where
  sana := rafagaSana_limpia hm hs hq hpq
  procesos := rfl
  refleja := by
    apply refleja_vacia
    intro i l hl
    obtain ⟨e, he, hoc, -⟩ := linea_some hl
    rw [hs.cache e (List.mem_of_getElem? he)] at hoc
    cases hoc

variable (cpu) in
/-- The cleaning at the end leaves in user memory the frames that the tables stood for. -/
theorem limpieza_representa (h : Representa pid p ps s v) :
    ∃ cache m, limpiarCacheDeProceso cpu s.cache s.memoria pid = some (cache, m) ∧ vista m = v ∧
      Representa pid p ps ⟨limpiarTlb s.tlb, cache, m⟩ v := by
  obtain ⟨es, m, hlimpia, hcon, hlen, hlibres⟩ :=
    limpiarEntradas_ok cpu h.integra h.sana.cache.entradas
  have hvista : vista m = v := by
    rw [hcon.marcos]
    exact volcar_todas h.refleja
  have hmmu : MmuLimpia (⟨limpiarTlb s.tlb, { s.cache with entradas := es }, m⟩ : EstadoCpu
      cfg) := by
    refine ⟨?_, hlibres, ?_⟩
    · intro i pid' pagina marco
      exact not_mapea_limpiar
    · intro hne
      change s.cache.puntero < es.length
      rw [hlen]
      apply h.sana.cache.puntero
      intro hnil
      rw [hnil, List.length_nil] at hlen
      exact hne (List.length_eq_zero_iff.mp hlen)
  obtain ⟨q, hq, hpq⟩ := h.sana.proceso
  obtain ⟨q', hq', hpq'⟩ := proceso_mismas hcon.procesos hq hpq
  refine ⟨{ s.cache with entradas := es }, m, ?_, hvista, ?_⟩
  · rw [limpiarCacheDeProceso, hlimpia]
    rfl
  · rw [← hvista, ← h.procesos, ← hcon.procesos]
    exact representa_limpia (invariante_con h.sana.invariante hcon) hmmu hq' hpq'

end Limpieza

section Rafagas

variable {s : EstadoCpu cfg} {v : ℕ → List Byte} {accs : List Acceso}

/-- A burst on the machine without tables. -/
def accesosDirectos (p : Proceso cfg) :
    (ℕ → List Byte) → List Acceso → Option (List Resultado × (ℕ → List Byte))
  | v, [] => some ([], v)
  | v, acc :: accs => do
    let (r, v₁) ← accesoDirecto p v acc
    let (rs, v₂) ← accesosDirectos p v₁ accs
    return (r :: rs, v₂)

theorem accesos_representan (halg : cpu.algoritmoCache ≠ .otro) (h : Representa pid p ps s v)
    (haccs : ∀ acc ∈ accs, Directa p acc.direccionLogica) :
    Option.Rel (fun x y => x.1 = y.1 ∧ Representa pid p ps x.2 y.2)
      (ejecutarAccesos cpu pid s accs) (accesosDirectos p v accs) := by
  induction accs generalizing s v with
  | nil => exact .some ⟨rfl, h⟩
  | cons acc accs ih =>
    have hpaso := acceso_representa halg h (haccs acc List.mem_cons_self)
    rw [ejecutarAccesos, accesosDirectos]
    rcases hx : ejecutarAcceso cpu s pid acc with _ | ⟨r, s₁⟩ <;>
      rcases hy : accesoDirecto p v acc with _ | ⟨r', v₁⟩ <;> rw [hx, hy] at hpaso
    · exact .none
    · cases hpaso
    · cases hpaso
    · obtain ⟨⟨hr, hrep⟩⟩ := hpaso
      dsimp only at hr hrep
      have hresto := ih hrep fun acc hacc => haccs acc (List.mem_cons_of_mem _ hacc)
      simp only [Option.bind_eq_bind, Option.bind_some, Option.pure_def]
      rcases hx' : ejecutarAccesos cpu pid s₁ accs with _ | ⟨rs, s₂⟩ <;>
        rcases hy' : accesosDirectos p v₁ accs with _ | ⟨rs', v₂⟩ <;> rw [hx', hy'] at hresto
      · exact .none
      · cases hresto
      · cases hresto
      · obtain ⟨⟨hrs, hrep'⟩⟩ := hresto
        dsimp only at hrs
        rw [hr, hrs]
        exact .some ⟨rfl, hrep'⟩

/-- A burst ends as the burst of the machine without tables. -/
theorem rafaga_directa (halg : cpu.algoritmoCache ≠ .otro) (h : Representa pid p ps s v)
    (haccs : ∀ acc ∈ accs, Directa p acc.direccionLogica) :
    Option.Rel (fun x y => x.1 = y.1 ∧ marcosDe cfg x.2 = y.2) (rafaga cpu s pid accs)
      (accesosDirectos p v accs) := by
  have hrel := accesos_representan halg h haccs
  rw [rafaga]
  rcases hx : ejecutarAccesos cpu pid s accs with _ | ⟨rs, s₁⟩ <;>
    rcases hy : accesosDirectos p v accs with _ | ⟨rs', v₁⟩ <;> rw [hx, hy] at hrel
  · exact .none
  · cases hrel
  · cases hrel
  · obtain ⟨⟨hrs, hrep⟩⟩ := hrel
    dsimp only at hrs hrep
    obtain ⟨cache, m, hlimpia, hvista, -⟩ := limpieza_representa cpu hrep
    rw [Option.bind_eq_bind, Option.bind_some]
    dsimp only
    rw [hlimpia]
    exact .some ⟨hrs, hvista⟩

/-- Two options related to a third by a relation that determines its left side are equal. -/
theorem igual_de_rel {α β : Type*} {R : α → β → Prop} {a b : Option α} {c : Option β}
    (ha : Option.Rel R a c) (hb : Option.Rel R b c) (hR : ∀ x y z, R x z → R y z → x = y) :
    a = b := by
  cases ha with
  | none =>
    cases hb
    rfl
  | some hx =>
    cases hb with
    | some hy => rw [hR _ _ _ hx hy]

/-- A burst without accesses leaves user memory as it is. -/
theorem rafaga_vacia (cpu : Cpu) (pid : ℤ) (hm : Integra s.memoria) (hs : MmuLimpia s) :
    rafaga cpu s pid [] = some ([], s.memoria.almacen.memoriaUsuario) := by
  have hes : ∀ e ∈ s.cache.entradas, e.ocupado = true →
      EntradaSana cfg pid (fun _ _ => True) e := by
    intro e he hoc
    rw [hs.cache e he] at hoc
    cases hoc
  obtain ⟨es, m, hlimpia, hcon, -, -⟩ := limpiarEntradas_ok cpu hm hes
  have hrefleja : Refleja (s.cache.entradas.map linea) (vista s.memoria) (vista s.memoria) := by
    apply refleja_vacia
    intro i l hl
    obtain ⟨e, he, hoc, -⟩ := linea_some (c := s.cache) hl
    rw [hs.cache e (List.mem_of_getElem? he)] at hoc
    cases hoc
  have hmem : m.almacen.memoriaUsuario = s.memoria.almacen.memoriaUsuario :=
    memoria_ext (hcon.marcos.trans (volcar_todas hrefleja))
  rw [rafaga, ejecutarAccesos, Option.bind_eq_bind, Option.bind_some]
  dsimp only
  rw [limpiarCacheDeProceso, hlimpia, ← hmem]
  rfl

end Rafagas

/-- Memoria maps the first `n` pages of `pid` to distinct frames. -/
structure MapaDePaginas (m : Memoria cfg) (pid : ℤ) (n : ℕ) (marcoDe : ℕ → ℕ) : Prop where
  traduce : ∀ dl : ℤ, 0 ≤ dl → dl < n * cfg.tamPagina →
    TraduceA m pid dl (marcoDe (obtenerPagina cfg dl).toNat)
  marco : ∀ k < n, marcoDe k < cfg.cantidadMarcos
  distintos : ∀ j < n, ∀ k < n, marcoDe j = marcoDe k → j = k

/-- An access to the first `n` pages, of a size that is not negative. -/
def EnPaginas (cfg : Config) (n : ℕ) (acc : Acceso) : Prop :=
  0 ≤ acc.direccionLogica ∧ acc.direccionLogica < n * cfg.tamPagina ∧ 0 ≤ acc.tamanio

section Mapa

variable {n : ℕ} {marcoDe : ℕ → ℕ} {m : Memoria cfg} {v : ℕ → List Byte} {acc : Acceso}
  {accs : List Acceso} {s : EstadoCpu cfg}

instance (acc : Acceso) : Decidable (EnPaginas cfg n acc) := inferInstanceAs (Decidable (_ ∧ _))

theorem pagina_de_base (cfg : Config) (k : ℕ) : ((k * cfg.tamPagina : ℕ) : ℤ).tdiv
    cfg.tamPagina = k := by
  rw [Int.natCast_mul, Int.mul_tdiv_cancel _ (tamPagina_int_pos cfg).ne']

/-- The page table repeats itself after the pages that it addresses, so a map of distinct
frames ends there. -/
theorem mapa_direccionable (h : MapaDePaginas m pid n marcoDe)
    (hp : buscarProceso m.diccionarioProcesos pid = some p) : n ≤ cfg.paginasDireccionables := by
  have hpos := cfg.tamPagina_pos
  have htotal : 0 < cfg.paginasDireccionables := Nat.pow_pos cfg.entradasPorTabla_pos
  by_contra hno
  have htraduce : ∀ k < n, ∃ f, traducir p ((k * cfg.tamPagina : ℕ) : ℤ) = some (.traduccionOk f) ∧
      (marcoDe k : ℤ) = aInt f := by
    intro k hk
    have hta := h.traduce ((k * cfg.tamPagina : ℕ) : ℤ) (Int.natCast_nonneg _)
      (by exact_mod_cast Nat.mul_lt_mul_of_pos_right hk hpos)
    rw [obtenerPagina, pagina_de_base, Int.toNat_natCast] at hta
    exact (traduceA_iff hp).mp hta
  obtain ⟨f, hf, hmarco⟩ := htraduce 0 (by omega)
  obtain ⟨f', hf', hmarco'⟩ := htraduce cfg.paginasDireccionables (by omega)
  obtain ⟨t, e, ht, hb, -, he⟩ := traducir_buscar hf
  obtain ⟨t', e', ht', hb', -, he'⟩ := traducir_buscar hf'
  rw [pagina_de_base, Int.toNat_natCast] at hb hb'
  have hdigitos : ∀ k ≤ cfg.nivelesInferiores,
      digito cfg cfg.paginasDireccionables k = digito cfg 0 k := by
    intro k hk
    have hniveles := cfg.niveles_eq
    have hmenor : cfg.cantidadNiveles = k + 1 + (cfg.cantidadNiveles - (k + 1)) := by omega
    rw [digito, digito, Config.paginasDireccionables, hmenor, pow_add, pow_succ, Nat.mul_assoc,
      Nat.mul_div_cancel_left _ (Nat.pow_pos cfg.entradasPorTabla_pos), Nat.mul_mod_right,
      Nat.zero_div, Nat.zero_mod]
  rw [ht] at ht'
  cases ht'
  rw [buscar_congr hdigitos, hb] at hb'
  cases hb'
  rw [← he, he', ← hmarco', Int.natCast_inj] at hmarco
  have := h.distintos 0 (by omega) cfg.paginasDireccionables (by omega) hmarco
  omega

theorem obtenerOffset_rango (cfg : Config) {dl : ℤ} (h₀ : 0 ≤ dl) :
    0 ≤ obtenerOffset cfg dl ∧ obtenerOffset cfg dl < cfg.tamPagina :=
  ⟨Int.tmod_nonneg _ h₀, Int.tmod_lt_of_pos _ (tamPagina_int_pos cfg)⟩

/-- An access to the map is direct, and Memoria translates it. -/
theorem directa_de_mapa (h : MapaDePaginas m pid n marcoDe)
    (hp : buscarProceso m.diccionarioProcesos pid = some p) (hacc : EnPaginas cfg n acc) :
    Directa p acc.direccionLogica ∧ ∃ f, traducir p acc.direccionLogica =
      some (.traduccionOk f) := by
  obtain ⟨h₀, h₁, -⟩ := hacc
  have hpos := tamPagina_int_pos cfg
  have hn := mapa_direccionable h hp
  obtain ⟨f, hf, -⟩ := (traduceA_iff hp).mp (h.traduce _ h₀ h₁)
  refine ⟨⟨Or.inl h₀, fun _ => ?_⟩, f, hf⟩
  have hpag : obtenerPagina cfg acc.direccionLogica < n := by
    rw [obtenerPagina, Int.tdiv_eq_ediv_of_nonneg h₀]
    exact Int.ediv_lt_of_lt_mul hpos h₁
  rw [direccionable]
  omega

/-- Where the int sum of the limit test is exact, the machine without tables is defined. -/
theorem accesoDirecto_definido (v : ℕ → List Byte) {f : ℤ} (hacc : EnPaginas cfg n acc)
    (hf : traducir p acc.direccionLogica = some (.traduccionOk f))
    (hint : EsInt (obtenerOffset cfg acc.direccionLogica + acc.tamanio)) :
    ∃ r, accesoDirecto p v acc = some r := by
  obtain ⟨h₀, -, htam⟩ := hacc
  have hoff := obtenerOffset_rango cfg h₀
  by_cases hexc : ExcedeLimite cfg acc.direccionLogica acc.tamanio
  · cases acc with
    | read dl tamanio => exact ⟨_, if_pos hexc⟩
    | write dl datos => exact ⟨_, if_pos hexc⟩
  · have hsuma := not_lt.mp hexc
    rw [aInt_eq hint] at hsuma
    have hen : EnPagina cfg (obtenerOffset cfg acc.direccionLogica) acc.tamanio :=
        ⟨hoff.1, htam, hsuma⟩
    cases acc with
    | read dl tamanio =>
      change EnPagina cfg (obtenerOffset cfg dl) tamanio at hen
      change ¬ ExcedeLimite cfg dl tamanio at hexc
      rw [directo_read hexc hf, copiarDePagina, if_pos hen, Option.map_some]
      exact ⟨_, rfl⟩
    | write dl datos =>
      change EnPagina cfg (obtenerOffset cfg dl) (aInt datos.length) at hen
      change ¬ ExcedeLimite cfg dl (aInt datos.length) at hexc
      rw [directo_write hexc hf, copiarAPagina, if_pos hen, Option.map_some]
      exact ⟨_, rfl⟩

theorem accesosDirectos_definidos (v : ℕ → List Byte) (h : MapaDePaginas m pid n marcoDe)
    (hp : buscarProceso m.diccionarioProcesos pid = some p)
    (haccs : ∀ acc ∈ accs, EnPaginas cfg n acc)
    (hint : ∀ acc ∈ accs, EsInt (obtenerOffset cfg acc.direccionLogica + acc.tamanio)) :
    ∃ r, accesosDirectos p v accs = some r := by
  induction accs generalizing v with
  | nil => exact ⟨_, rfl⟩
  | cons acc accs ih =>
    have hacc := haccs acc List.mem_cons_self
    obtain ⟨f, hf⟩ := (directa_de_mapa h hp hacc).2
    obtain ⟨⟨r, v₁⟩, hr⟩ := accesoDirecto_definido v hacc hf (hint acc List.mem_cons_self)
    obtain ⟨⟨rs, v₂⟩, hrs⟩ := ih v₁ (fun acc hacc => haccs acc (List.mem_cons_of_mem _ hacc))
      fun acc hacc => hint acc (List.mem_cons_of_mem _ hacc)
    refine ⟨(r :: rs, v₂), ?_⟩
    rw [accesosDirectos, hr, Option.bind_eq_bind, Option.bind_some]
    dsimp only
    rw [hrs]
    rfl

/-- No access reaches a map without a process. -/
theorem accesos_sin_proceso (h : MapaDePaginas m pid n marcoDe)
    (hp : buscarProceso m.diccionarioProcesos pid = none)
    (haccs : ∀ acc ∈ accs, EnPaginas cfg n acc) :
    accs = [] := by
  apply List.eq_nil_iff_forall_not_mem.mpr
  intro acc hacc
  obtain ⟨h₀, h₁, -⟩ := haccs acc hacc
  obtain ⟨paquete, m', hat, hcod, -⟩ := h.traduce _ h₀ h₁
  simp only [manejarTraduccionTabla, hp, Option.some.injEq, Prod.mk.injEq] at hat
  obtain ⟨hresp, -⟩ := hat
  cases hresp
  exact absurd hcod (by decide)

/-- A burst with tables gives the verdicts, the bytes and the user memory of the burst
without them, and is defined when no limit test overflows. -/
theorem tablas_transparentes (halg : cpu.algoritmoCache ≠ .otro) (hm : Alcanzable s.memoria)
    (hs : MmuLimpia s) (hmapa : MapaDePaginas s.memoria pid n marcoDe)
    (haccs : ∀ acc ∈ accs, EnPaginas cfg n acc) :
    rafaga cpu s pid accs = rafaga cpu (sinTablas s) pid accs ∧
      ((∀ acc ∈ accs, EsInt (obtenerOffset cfg acc.direccionLogica + acc.tamanio)) →
        ∃ r, rafaga cpu s pid accs = some r) := by
  have hinv := invariante_de_alcanzable hm
  have hlimpia := mmuLimpia_sinTablas s
  cases hp : buscarProceso s.memoria.diccionarioProcesos pid with
  | none =>
    have hint := Integra.de_invariante hinv
    rw [accesos_sin_proceso hmapa hp haccs, rafaga_vacia cpu pid hint hs,
      rafaga_vacia (s := sinTablas s) cpu pid hint hlimpia]
    exact ⟨rfl, fun _ => ⟨_, rfl⟩⟩
  | some p =>
    have hdir : ∀ acc ∈ accs, Directa p acc.direccionLogica := by
      intro acc hacc
      exact (directa_de_mapa hmapa hp (haccs acc hacc)).1
    have hcon := rafaga_directa halg (representa_limpia hinv hs hp ⟨rfl, rfl⟩) hdir
    have hsin := rafaga_directa halg
      (representa_limpia (s := sinTablas s) hinv hlimpia hp ⟨rfl, rfl⟩) hdir
    have hv : vista (sinTablas s).memoria = vista s.memoria := rfl
    rw [hv] at hsin
    constructor
    · apply igual_de_rel hcon hsin
      rintro ⟨rs, mem⟩ ⟨rs', mem'⟩ ⟨rsP, vP⟩ ⟨hrs, hmem⟩ ⟨hrs', hmem'⟩
      have hmemoria := memoria_ext (hmem.trans hmem'.symm)
      dsimp only at hrs hrs' hmemoria
      rw [hrs, hrs', hmemoria]
    · intro hsum
      obtain ⟨r, hr⟩ := accesosDirectos_definidos (vista s.memoria) hmapa hp haccs hsum
      rw [hr] at hcon
      cases hx : rafaga cpu s pid accs with
      | none =>
        rw [hx] at hcon
        cases hcon
      | some x => exact ⟨x, rfl⟩

/-- Two pages through a TLB and a cache of one entry each: the write to the first page is
still in the cache when the second page evicts it. -/
theorem tablas_transparentes_ejemplo :
    ∃ m : Memoria configEjemplo,
      ejecutar (inicial configEjemplo) [(entornoEjemplo, .initProc 1 8 0 [])] = some m ∧
      rafaga cpuEjemplo (iniciarMmu 1 1 m) 1 [.write 1 [65], .read 4 2, .read 0 4] =
        rafaga cpuEjemplo (sinTablas (iniciarMmu 1 1 m)) 1 [.write 1 [65], .read 4 2,
          .read 0 4] := by
  have hm : ∃ (m : Memoria configEjemplo) (p : Proceso configEjemplo),
      ejecutar (inicial configEjemplo) [(entornoEjemplo, .initProc 1 8 0 [])] = some m ∧
      buscarProceso m.diccionarioProcesos 1 = some p ∧
      ∀ k : Fin 8, MemoriaTraduccion.traducir p (k : ℕ) =
        some (.traduccionOk ((k : ℕ) / 4 : ℕ)) := ⟨_, _, rfl, rfl, by decide⟩
  obtain ⟨m, p, hrun, hp, htrad⟩ := hm
  have hmapa : MapaDePaginas (iniciarMmu 1 1 m).memoria 1 2 id := by
    refine ⟨?_, ?_, ?_⟩
    · intro dl h₀ h₁
      obtain ⟨d, rfl⟩ := Int.eq_ofNat_of_zero_le h₀
      have hd : d < 8 := by
        have : (configEjemplo.tamPagina : ℤ) = 4 := rfl
        omega
      refine (traduceA_iff hp).mpr ⟨_, htrad ⟨d, hd⟩, ?_⟩
      have hpag : obtenerPagina configEjemplo d = ((d / 4 : ℕ) : ℤ) := rfl
      rw [hpag, id_eq, Int.toNat_natCast, aInt_eq ⟨by omega, by omega⟩]
    · intro k hk
      exact lt_of_lt_of_le hk (by decide)
    · intro j _ k _ h
      exact h
  exact ⟨m, hrun, (tablas_transparentes (by decide) (alcanzable_ejecutar _ .inicial hrun)
    (mmuLimpia_iniciar 1 1 m) hmapa (by decide)).1⟩

end Mapa

end CpuTransparencia

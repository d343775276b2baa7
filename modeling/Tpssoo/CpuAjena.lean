import Tpssoo.CpuPrivada

/-!
# What a burst leaves alone

A CPU changes user memory and metrics and nothing else in Memoria, and of user memory only
the frames of the process it runs. With that a CPU is the machine of its process alone.
-/
namespace CpuAjena

open EnterosC Protocolo RangosBytes Bloques CacheDiferida MemoriaEstado MemoriaTraduccion
  MemoriaPeticiones MemoriaFilas MemoriaEfectos MemoriaInvariante MemoriaAdmision MemoriaMarcos
  CpuEstado CpuTlb CpuCache CpuAccesos CpuMemoria CpuCoherencia CpuRafagas CpuProteccion
  CpuTransparencia CpuInstrucciones CpuCiclo CpuDesalojo CpuGiros CpuPrivada
open SistemaConjunto (deCpu)

variable {cfg : Config} {cpu : Cpu} {pid : ℤ} {p : Proceso cfg} {ps : List (Proceso cfg)}
  {m m' m'' : Memoria cfg}

/-- Nothing but user memory and metrics changed. -/
structure SoloMemoria (m m' : Memoria cfg) : Prop where
  almacen : m'.almacen = { m.almacen with memoriaUsuario := m'.almacen.memoriaUsuario }
  procesos : procesos m' = procesos m

/-- Nothing but the frames of the process and metrics changed. -/
structure Ajena (p : Proceso cfg) (m m' : Memoria cfg) : Prop where
  solo : SoloMemoria m m'
  fuera : FueraIgual p m m'

section Pedidos

theorem SoloMemoria.refl (m : Memoria cfg) : SoloMemoria m m := ⟨rfl, rfl⟩

theorem SoloMemoria.trans (h : SoloMemoria m m') (h' : SoloMemoria m' m'') :
    SoloMemoria m m'' where
  almacen := by rw [h'.almacen, h.almacen]
  procesos := h'.procesos.trans h.procesos

theorem SoloMemoria.pids (h : SoloMemoria m m')
    (hn : (m.diccionarioProcesos.map Proceso.pid).Nodup) :
    (m'.diccionarioProcesos.map Proceso.pid).Nodup :=
  pids_procesos h.procesos ▸ hn

theorem Ajena.refl (p : Proceso cfg) (m : Memoria cfg) : Ajena p m m :=
  ⟨.refl m, .refl p m⟩

theorem Ajena.trans (h : Ajena p m m') (h' : Ajena p m' m'') : Ajena p m m'' :=
  ⟨h.solo.trans h'.solo, h.fuera.trans h'.fuera⟩

theorem ajena_quieta (h : Quieta m m') : Ajena p m m' where
  solo := ⟨by rw [h.almacen], h.procesos⟩
  fuera := fueraIgual_quieta h

/-- A frame that is not of the process is as it was. -/
theorem vista_fuera {f : ℕ} (h : FueraIgual p m m') (hf : ¬ MarcoAsignado p f) :
    vista m' f = vista m f := by
  apply List.ext_getElem?
  intro i
  rw [vista, vista, marcosDe, marcosDe, getElem?_leerRango, getElem?_leerRango]
  by_cases hi : i < cfg.tamPagina
  · rw [if_pos hi, if_pos hi]
    apply h
    rintro g hg ⟨hdesde, hhasta⟩
    have hmarco : g = f := by
      by_contra hne
      rcases bloques_disjuntos (t := cfg.tamPagina) hne with hlt | hlt <;> omega
    exact hf (hmarco ▸ hg)
  · rw [if_neg hi, if_neg hi]

/-- The requests of a CPU. -/
theorem solo_pedido {env : Entorno} {pet : Peticion} {envios : List Envio}
    (hn : (m.diccionarioProcesos.map Proceso.pid).Nodup) (hcpu : deCpu pet = true)
    (h : atenderPostHandshake env m pet = some (envios, m')) : SoloMemoria m m' := by
  have hef := efecto_de_atender hn h
  cases hef with
  | quieto ha hp => exact ⟨by rw [ha], hp⟩
  | escritura hcopia hlargo ha hp => exact ⟨by rw [ha], hp⟩
  | alta inst hcabe => cases hcpu
  | baja hp => cases hcpu
  | suspension hp => cases hcpu
  | desuspension hp hcabe => cases hcpu

theorem traduccion_solo (hn : (m.diccionarioProcesos.map Proceso.pid).Nodup) {dl marco : ℤ}
    (h : pedirTraduccionAMemoria cpu m pid dl = some (marco, m')) : SoloMemoria m m' := by
  obtain ⟨⟨envios, m₁⟩, hat, h⟩ := Option.bind_eq_some_iff.mp h
  have hsolo := solo_pedido hn rfl hat
  dsimp only at h
  split at h
  · split at h
    · obtain ⟨marcoRecibido, -, h⟩ := Option.bind_eq_some_iff.mp h
      cases h
      exact hsolo
    · cases h
      exact hsolo
  · cases h

theorem lectura_solo (hn : (m.diccionarioProcesos.map Proceso.pid).Nodup)
    {marco offset tamanio : ℤ} {leida : Option (List Byte)}
    (h : leerBytesDeMemoriaPrincipal cpu m marco offset tamanio pid = some (leida, m')) :
    SoloMemoria m m' := by
  obtain ⟨⟨envios, m₁⟩, hat, h⟩ := Option.bind_eq_some_iff.mp h
  have hsolo := solo_pedido hn rfl hat
  dsimp only at h
  split at h
  · split at h
    · cases h
      exact hsolo
    · split at h
      · cases h
        exact hsolo
      · cases h
        exact hsolo
  · cases h

theorem escritura_solo (hn : (m.diccionarioProcesos.map Proceso.pid).Nodup)
    {marco offset tamanio : ℤ} {datos : List Byte}
    (h : escribirBytesEnMemoriaPrincipal cpu m marco offset tamanio datos pid = some m') :
    SoloMemoria m m' := by
  obtain ⟨⟨envios, m₁⟩, hat, h⟩ := Option.bind_eq_some_iff.mp h
  have hsolo := solo_pedido hn rfl hat
  dsimp only at h
  split at h
  · cases h
    exact hsolo
  · cases h

theorem modificada_solo (hn : (m.diccionarioProcesos.map Proceso.pid).Nodup) {e : EntradaCache}
    (h : escribirModificada cpu m e pid = some m') : SoloMemoria m m' := by
  rw [escribirModificada] at h
  split at h
  · exact escritura_solo hn h
  · cases h
    exact .refl m

theorem insertar_solo (hn : (m.diccionarioProcesos.map Proceso.pid).Nodup) {c c' : Cache}
    {pagina marco : ℤ} {contenido : List Byte} {modificado : Bool}
    (h : insertarEnCache cpu c m pid pagina marco contenido modificado = some (c', m')) :
    SoloMemoria m m' := by
  rw [insertarEnCache] at h
  split at h
  · cases h
    exact .refl m
  · split at h
    · cases h
      exact .refl m
    · rw [seleccionarVictimaCache] at h
      split at h
      · obtain ⟨⟨v, c₁⟩, -, h⟩ := Option.bind_eq_some_iff.mp h
        obtain ⟨e, -, h⟩ := Option.bind_eq_some_iff.mp h
        dsimp only at h
        split at h
        · obtain ⟨m₁, hesc, h⟩ := Option.bind_eq_some_iff.mp h
          cases h
          exact modificada_solo hn hesc
        · cases h
          exact .refl m
      · obtain ⟨⟨v, c₁⟩, -, h⟩ := Option.bind_eq_some_iff.mp h
        obtain ⟨e, -, h⟩ := Option.bind_eq_some_iff.mp h
        obtain ⟨m₁, hesc, h⟩ := Option.bind_eq_some_iff.mp h
        cases h
        exact modificada_solo hn hesc
      · cases h
        exact .refl m

end Pedidos

section Accesos

variable {s s' : EstadoCpu cfg} {dl : ℤ}

theorem marco_solo (hn : (s.memoria.diccionarioProcesos.map Proceso.pid).Nodup)
    {alAcertar : Tlb → ℕ → Tlb} {r : Option ℤ}
    (h : obtenerMarco cpu s pid dl alAcertar = some (r, s')) :
    SoloMemoria s.memoria s'.memoria := by
  rw [obtenerMarco] at h
  dsimp only at h
  split at h
  · obtain ⟨e, -, h⟩ := Option.bind_eq_some_iff.mp h
    cases h
    exact .refl _
  · obtain ⟨⟨marco, m⟩, hped, h⟩ := Option.bind_eq_some_iff.mp h
    have hsolo := traduccion_solo hn hped
    dsimp only at h
    split at h
    · cases h
      exact hsolo
    · cases h
      exact hsolo

theorem read_solo (hn : (s.memoria.diccionarioProcesos.map Proceso.pid).Nodup) {tamanio : ℤ}
    {r : Resultado} (h : manejarInstruccionRead cpu s pid dl tamanio = some (r, s')) :
    SoloMemoria s.memoria s'.memoria := by
  rw [manejarInstruccionRead] at h
  dsimp only at h
  split at h
  · cases h
    exact .refl _
  · split at h
    · obtain ⟨e, -, h⟩ := Option.bind_eq_some_iff.mp h
      obtain ⟨datos, -, h⟩ := Option.bind_eq_some_iff.mp h
      cases h
      exact .refl _
    · obtain ⟨⟨marco, s₁⟩, hobt, h⟩ := Option.bind_eq_some_iff.mp h
      have hsolo := marco_solo hn hobt
      dsimp only at h
      split at h
      · cases h
        exact hsolo
      · obtain ⟨⟨leida, m⟩, hlee, h⟩ := Option.bind_eq_some_iff.mp h
        have hsolo₁ := hsolo.trans (lectura_solo (hsolo.pids hn) hlee)
        dsimp only at h
        split at h
        · cases h
          exact hsolo₁
        · obtain ⟨⟨cache, m'⟩, hins, h⟩ := Option.bind_eq_some_iff.mp h
          obtain ⟨datos, -, h⟩ := Option.bind_eq_some_iff.mp h
          cases h
          exact hsolo₁.trans (insertar_solo (hsolo₁.pids hn) hins)

theorem write_solo (hn : (s.memoria.diccionarioProcesos.map Proceso.pid).Nodup) {datos : List Byte}
    {r : Resultado} (h : manejarInstruccionWrite cpu s pid dl datos = some (r, s')) :
    SoloMemoria s.memoria s'.memoria := by
  rw [manejarInstruccionWrite] at h
  dsimp only at h
  split at h
  · cases h
    exact .refl _
  · split at h
    · split at h
      · obtain ⟨e, -, h⟩ := Option.bind_eq_some_iff.mp h
        obtain ⟨contenido, -, h⟩ := Option.bind_eq_some_iff.mp h
        cases h
        exact .refl _
      · obtain ⟨⟨marco, m⟩, hped, h⟩ := Option.bind_eq_some_iff.mp h
        have hsolo := traduccion_solo hn hped
        dsimp only at h
        split at h
        · cases h
          exact hsolo
        · obtain ⟨⟨leida, m₁⟩, hlee, h⟩ := Option.bind_eq_some_iff.mp h
          have hsolo₁ := hsolo.trans (lectura_solo (hsolo.pids hn) hlee)
          dsimp only at h
          split at h
          · cases h
            exact hsolo₁
          · obtain ⟨contenido, -, h⟩ := Option.bind_eq_some_iff.mp h
            obtain ⟨⟨cache, m'⟩, hins, h⟩ := Option.bind_eq_some_iff.mp h
            cases h
            exact hsolo₁.trans (insertar_solo (hsolo₁.pids hn) hins)
    · obtain ⟨⟨marco, s₁⟩, hobt, h⟩ := Option.bind_eq_some_iff.mp h
      have hsolo := marco_solo hn hobt
      dsimp only at h
      split at h
      · cases h
        exact hsolo
      · obtain ⟨m, hesc, h⟩ := Option.bind_eq_some_iff.mp h
        cases h
        exact hsolo.trans (escritura_solo (hsolo.pids hn) hesc)

theorem acceso_solo (hn : (s.memoria.diccionarioProcesos.map Proceso.pid).Nodup) {acc : Acceso}
    {r : Resultado} (h : ejecutarAcceso cpu s pid acc = some (r, s')) :
    SoloMemoria s.memoria s'.memoria := by
  cases acc with
  | read dl tamanio => exact read_solo hn h
  | write dl datos => exact write_solo hn h

/-- The burst, as one that may hold any page. -/
theorem sana_todas {U : ℤ → Prop} (h : RafagaSana pid p U s) : RafagaSana pid p todas s where
  invariante := h.invariante
  proceso := h.proceso
  tlb := by
    intro i pid' pagina marco hmapea
    obtain ⟨hpid, ⟨htrad, -⟩, hmarco⟩ := h.tlb i pid' pagina marco hmapea
    exact ⟨hpid, ⟨htrad, trivial⟩, hmarco⟩
  cache :=
    { entradas := by
        intro e he hoc
        obtain ⟨⟨hpid, ⟨htrad, -⟩, hmarco⟩, hlargo⟩ := h.cache.entradas e he hoc
        exact ⟨⟨hpid, ⟨htrad, trivial⟩, hmarco⟩, hlargo⟩
      puntero := h.cache.puntero }

/-- An access to an address that no table answers for another page's stays in the frames of
the process. -/
theorem acceso_fuera (h : RafagaSana pid p todas s) {acc : Acceso}
    (hdl : 0 ≤ acc.direccionLogica ∨ acc.direccionLogica ≤ -cfg.tamPagina) {r : Resultado}
    (hacc : ejecutarAcceso cpu s pid acc = some (r, s')) : FueraIgual p s.memoria s'.memoria := by
  by_cases hexc : ExcedeLimite cfg acc.direccionLogica acc.tamanio
  · rw [acceso_excedido hexc] at hacc
    cases hacc
    exact .refl _ _
  · have hdes := acceso_desenlace cpu h hexc
    rw [hacc] at hdes
    cases hdes with
    | accede halcanza hsana hdentro =>
      have hac : Acepta p acc.direccionLogica := by
        by_contra hno
        rcases halcanza with hacierta | ⟨f, htrad⟩
        · have hneg := acierto_negativo h hacierta hno
          omega
        · rw [traducir_fuera hno] at htrad
          cases htrad
      exact (hdentro (Int.tmod_nonneg _ hac.2)).2
    | rechaza hfalla htrad hr hsana hfuera => exact hfuera

end Accesos

/-- An access with an address that is not folded into page 0 from below. -/
def Bien (cfg : Config) (acc : Acceso) : Prop :=
  0 ≤ acc.direccionLogica ∨ acc.direccionLogica ≤ -cfg.tamPagina

instance (acc : Acceso) : Decidable (Bien cfg acc) := inferInstanceAs (Decidable (_ ∨ _))

/-- A CPU that runs the process with the memory `memoria`, since Memoria was in `m`. -/
structure Encarna (pid : ℤ) (p : Proceso cfg) (m : Memoria cfg) (s : EstadoCpu cfg)
    (memoria : List Byte) : Prop where
  llena : ∃ v, Representa pid p (procesos m) s v ∧ Llena p (paginaEn v p) memoria
  ajena : Ajena p m s.memoria

/-- After the cleaning the tables are empty, and the frames hold the memory. -/
structure Asienta (p : Proceso cfg) (s : EstadoCpu cfg) (memoria : List Byte) : Prop where
  limpia : MmuLimpia s
  llena : Llena p (paginaEn (vista s.memoria) p) memoria

section Maquinas

variable {s : EstadoCpu cfg} {v : ℕ → List Byte}

variable (cpu) in
theorem limpieza_asienta (h : Representa pid p ps s v) :
    ∃ s', (maquina cpu pid).limpiar s = some s' ∧ MmuLimpia s' ∧ vista s'.memoria = v ∧
      Representa pid p ps s' v ∧ Ajena p s.memoria s'.memoria := by
  obtain ⟨cache, m, hlimpia, hvista, hrep⟩ := limpieza_representa cpu h
  obtain ⟨cache', m', hlimpia', hfuera⟩ := limpieza_sana cpu (sana_todas h.sana)
  obtain ⟨es, m'', hentradas, hcon, hlen, hlibres⟩ :=
    limpiarEntradas_ok cpu h.integra h.sana.cache.entradas
  have hmismo : limpiarCacheDeProceso cpu s.cache s.memoria pid =
      some ({ s.cache with entradas := es }, m'') := by
    rw [limpiarCacheDeProceso, hentradas]
    rfl
  rw [hlimpia] at hlimpia' hmismo
  cases hlimpia'
  cases hmismo
  refine ⟨⟨limpiarTlb s.tlb, { s.cache with entradas := es }, m⟩, ?_, ?_, hvista, hrep,
    ⟨hcon.almacen, hcon.procesos⟩, hfuera⟩
  · change (limpiarCacheDeProceso cpu s.cache s.memoria pid).map _ = _
    rw [hlimpia]
    rfl
  · refine ⟨?_, hlibres, ?_⟩
    · intro i pid' pagina marco
      exact not_mapea_limpiar
    · intro hne
      change s.cache.puntero < es.length
      rw [hlen]
      apply h.sana.cache.puntero
      intro hnil
      rw [hnil, List.length_nil] at hlen
      exact hne (List.length_eq_zero_iff.mp hlen)

/-- A CPU with the tables of a burst is the machine of the process alone. -/
theorem maquina_privada (cpu : Cpu) (halg : cpu.algoritmoCache ≠ .otro)
    (hp : buscarProceso m.diccionarioProcesos pid = some p) (hi : Instalado p) :
    Relacionadas (maquina cpu pid) (privada cfg p.instrucciones) (Encarna pid p m) (Asienta p)
      (Bien cfg) where
  fetch := by
    rintro s memoria pc ⟨⟨v, hrep, hll⟩, haj⟩
    obtain ⟨q, hq, -⟩ := hrep.sana.proceso
    obtain ⟨m', hfetch, hquieta⟩ := fetch_programa cpu hrep.integra.pids hq pc
    rw [instrucciones_procesos hrep.procesos hp hq] at hfetch
    change Option.Rel _ ((CpuInstrucciones.fetch cpu s.memoria pid pc).map _) _
    rw [hfetch]
    exact .some ⟨rfl, ⟨v, hrep.quieta hquieta hrep.sana.tlb, hll⟩, haj.trans (ajena_quieta hquieta)⟩
  acceso := by
    rintro s memoria acc ⟨⟨v, hrep, hll⟩, haj⟩ hbien
    have hdir : Directa p acc.direccionLogica := by
      refine ⟨hbien, fun hac => ?_⟩
      obtain ⟨h₀, hlt⟩ := (acepta_iff hi).mp hac
      have hpag := (pagina_lt_iff cfg _ h₀).mpr hlt
      have hmin : paginasDadas cfg p.tamProceso ≤ cfg.paginasDireccionables := Nat.min_le_right _ _
      rw [direccionable, obtenerPagina]
      omega
    have hrel := acceso_representa halg hrep hdir
    have hrel' := acceso_privado hi hll acc
    change Option.Rel _ (ejecutarAcceso cpu s pid acc) (accesoPrivado cfg memoria acc)
    rcases hx : ejecutarAcceso cpu s pid acc with _ | ⟨r, s'⟩ <;>
      rcases hy : accesoDirecto p v acc with _ | ⟨r', v'⟩ <;>
      rcases hz : accesoPrivado cfg memoria acc with _ | ⟨r'', memoria'⟩ <;>
      rw [hx, hy] at hrel <;> rw [hy, hz] at hrel'
    · exact .none
    · cases hrel'
    · cases hrel
    · cases hrel
    · cases hrel
    · cases hrel
    · cases hrel'
    · obtain ⟨hr, hrep'⟩ := hrel
      obtain ⟨hr', hll'⟩ := hrel'
      have hn := hrep.integra.pids
      exact .some ⟨hr.trans hr', ⟨v', hrep', hll'⟩,
        haj.trans ⟨acceso_solo hn hx, acceso_fuera (sana_todas hrep.sana) hbien hx⟩⟩
  limpiar := by
    rintro s memoria ⟨⟨v, hrep, hll⟩, haj⟩
    obtain ⟨s', hlimpia, hmmu, hvista, hrep', haj'⟩ := limpieza_asienta cpu hrep
    rw [hlimpia]
    exact .some ⟨⟨⟨v, hrep', hll⟩, haj.trans haj'⟩, hmmu, hvista ▸ hll⟩

end Maquinas

end CpuAjena

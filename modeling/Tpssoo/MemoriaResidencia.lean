import Tpssoo.MemoriaDesuspension
import Tpssoo.MemoriaVolcado

/-!
# The processes whose pages are all in frames

Only `SUSPENDER_PROCESO` takes pages out of their frames, and only those of its process. A
`DESUSPENDER_PROCESO` that Memoria accepts brings all of them back, and `INIT_PROC` gives
every page a frame.
-/
namespace MemoriaResidencia

open EnterosC Protocolo MemoriaEstado MemoriaSwap MemoriaPaginacion MemoriaInstrucciones
  MemoriaPeticiones MemoriaFilas MemoriaEfectos MemoriaInvariante MemoriaDesuspension MemoriaVolcado

variable {cfg : Config} {m m' : Memoria cfg} {env : Entorno} {pet : Peticion} {pid : ℤ}

/-- All the pages that Memoria gave to a process are in frames, and none is in swap. -/
def Residente (m : Memoria cfg) (pid : ℤ) : Prop :=
  ∀ p, buscarProceso m.diccionarioProcesos pid = some p →
    contarPaginasPresentes p.tablaNivel1 = paginasDadas cfg p.tamProceso ∧
      contarPaginasEnSwap p.tablaNivel1 = 0

/-- The entries of a process that have a frame or a slot are as many as the pages that it was
given. -/
def ConSusPaginas (p : Proceso cfg) : Prop :=
  p.entradas.countP EntradaTabla.asignada = paginasDadas cfg p.tamProceso

def SinSwap (pid : ℤ) (p : Proceso cfg) : Prop :=
  p.pid = pid → p.entradas.countP EntradaTabla.enSwap = 0

/-- What Memoria keeps about its processes in any order of the requests, a PID that is sent
twice included. -/
structure Paginas (m : Memoria cfg) : Prop where
  pids : (m.diccionarioProcesos.map Proceso.pid).Nodup
  dadas : ∀ p ∈ m.diccionarioProcesos, ConSusPaginas p

section Filas

theorem asignada_casos (es : List EntradaTabla) : es.countP EntradaTabla.asignada =
    es.countP EntradaTabla.presente + es.countP EntradaTabla.enSwap := by
  induction es with
  | nil => rfl
  | cons e es ih =>
    rw [List.countP_cons, List.countP_cons, List.countP_cons, ih]
    cases hp : e.presente <;> by_cases hs : e.posicionSwap = -1 <;>
      simp [EntradaTabla.asignada, EntradaTabla.enSwap, hp, hs] <;> omega

/-- The pages of a resident process, by its entries. -/
theorem residente_iff (h : Paginas m) : Residente m pid ↔
    ∀ p ∈ m.diccionarioProcesos, SinSwap pid p := by
  constructor
  · intro hres p hp hpid
    subst hpid
    have hcuenta := (hres p (buscarProceso_de_mem h.pids hp)).2
    rwa [contarPaginasEnSwap_eq] at hcuenta
  · intro hsin p hp
    obtain ⟨hmem, hpid⟩ := buscarProceso_some hp
    have hdadas : ConSusPaginas p := h.dadas p hmem
    have hswap := hsin p hmem hpid
    rw [ConSusPaginas, asignada_casos, hswap] at hdadas
    rw [contarPaginasPresentes_eq, contarPaginasEnSwap_eq]
    exact ⟨hdadas, hswap⟩

theorem enSwap_repartir {es : List EntradaTabla} {marcos : List ℤ}
    (h : es.countP EntradaTabla.enSwap ≤ marcos.length) :
    (repartir es marcos).countP EntradaTabla.enSwap = 0 := by
  rw [List.countP_eq_zero]
  intro e he
  obtain ⟨k, hk⟩ := List.mem_iff_getElem?.mp he
  have hlargo : k < es.length := by
    have hlargo := (List.getElem?_eq_some_iff.mp hk).1
    rwa [length_repartir] at hlargo
  rcases repartir_entrada h (List.getElem?_eq_getElem hlargo) with ⟨hno, hget⟩ | ⟨-, i, -, hget⟩
  · cases hk.symm.trans hget
    exact ne_true_of_eq_false hno
  · cases hk.symm.trans hget
    exact Bool.false_ne_true

/-- Bringing a process back when its pages fit. -/
theorem sinSwap_desuspender {a : Almacen} {p : Proceso cfg}
    (hcabe : contarPaginasEnSwap p.tablaNivel1 ≤ contarMarcosLibres a.bitmapMarcos) :
    (desuspenderPaginas env a p).2.entradas.countP EntradaTabla.enSwap = 0 := by
  rw [(traida_fila env a hcabe).1]
  refine enSwap_repartir ?_
  rw [length_tomarMarcos, contarPaginasEnSwap_eq]

theorem nueva_fila {bits : List Bool} {tam : ℤ} (pid : ℤ) (inst : List Instruccion)
    (hcabe : paginasRequeridas cfg tam ≤ contarMarcosLibres bits) :
    (crearProceso cfg bits pid tam inst).1.entradas.countP EntradaTabla.asignada =
        paginasDadas cfg tam ∧
      (crearProceso cfg bits pid tam inst).1.entradas.countP EntradaTabla.enSwap = 0 := by
  obtain ⟨-, vacias, hfila⟩ := crearProceso_eq pid inst hcabe
  have hdadas : EntradaTabla.asignada ∘ entradaEn = fun _ => true := rfl
  have hfuera : EntradaTabla.enSwap ∘ entradaEn = fun _ => false := rfl
  have hvacia : entradaVacia.asignada = false := rfl
  have hvacia' : entradaVacia.enSwap = false := rfl
  rw [hfila]
  constructor
  · rw [List.countP_append, List.countP_map, hdadas, List.countP_replicate, hvacia]
    simp
  · rw [List.countP_append, List.countP_map, hfuera, List.countP_replicate, hvacia']
    simp

end Filas

section Efectos

theorem iguales_de_soloSwap {p q : Proceso cfg} (h : soloMetricasSwap p = soloMetricasSwap q) :
    p.pid = q.pid ∧ p.entradas = q.entradas ∧ p.tamProceso = q.tamProceso := by
  have hent : (soloMetricasSwap p).entradas = (soloMetricasSwap q).entradas :=
    congrArg Proceso.entradas h
  refine ⟨?_, hent, ?_⟩
  · exact (congrArg Proceso.pid h : (soloMetricasSwap p).pid = (soloMetricasSwap q).pid)
  · exact (congrArg Proceso.tamProceso h :
      (soloMetricasSwap p).tamProceso = (soloMetricasSwap q).tamProceso)

theorem cuenta_de_map {es es' : List EntradaTabla}
    (h : es'.map EntradaTabla.asignada = es.map EntradaTabla.asignada) :
    es'.countP EntradaTabla.asignada = es.countP EntradaTabla.asignada := by
  have hmap : ∀ xs : List EntradaTabla, xs.countP EntradaTabla.asignada =
      (xs.map EntradaTabla.asignada).countP id := by
    intro xs
    rw [List.countP_map]
    rfl
  rw [hmap, hmap, h]

theorem paginas_efecto (h : Paginas m) (hef : Efecto env m pet m') : Paginas m' := by
  constructor
  · have higuales : procesos m' = procesos m →
        (m'.diccionarioProcesos.map Proceso.pid).Nodup := by
      intro hp
      rw [← pids_soloSwap, ← procesos, hp, procesos, pids_soloSwap]
      exact h.pids
    cases hef with
    | quieto ha hp => exact higuales hp
    | escritura hcopia hlargo ha hp => exact higuales hp
    | alta inst hcabe =>
      rename_i pid tam largo path
      rw [guardarProceso, List.map_cons, List.nodup_cons, pid_crearProceso]
      refine ⟨?_, h.pids.sublist (List.filter_sublist.map _)⟩
      intro hmem
      obtain ⟨q, hq, hpid⟩ := List.mem_map.mp hmem
      have hne := List.of_mem_filter hq
      rw [hpid] at hne
      simp at hne
    | baja hp => exact h.pids.sublist (List.filter_sublist.map _)
    | suspension hp =>
      rw [conPaginas, conProceso, conAlmacen, pids_modificar]
      exact h.pids
    | desuspension hp hcabe =>
      rw [conPaginas, conProceso, conAlmacen, pids_modificar]
      exact h.pids
  · refine todos_efecto ?_ ?_ ?_ ?_ h.dadas hef
    · intro p q hqp hp
      obtain ⟨-, hfila, htam⟩ := iguales_de_soloSwap hqp
      rwa [ConSusPaginas, ← hfila, ← htam]
    · intro pid tam inst hcabe
      have htam : (crearProceso cfg m.almacen.bitmapMarcos pid tam inst).1.tamProceso = tam := by
        unfold crearProceso
        dsimp only
        split <;> rfl
      rw [ConSusPaginas, htam]
      exact (nueva_fila pid inst hcabe).1
    · intro p _ hp
      rw [ConSusPaginas, (suspenderPaginas_resto env m.almacen p).2.1, ← hp,
        (suspenderPaginas_eq env m.almacen p).2.1]
      exact cuenta_de_map (bucle_map (asignada_suspenderEntrada cfg env.swap) _ _)
    · intro p _ hp
      rw [ConSusPaginas, (desuspenderPaginas_resto env m.almacen p).2.1, ← hp,
        (desuspenderPaginas_eq env m.almacen p).2.1]
      exact cuenta_de_map (bucle_map (asignada_desuspenderPaso cfg env.swap) _ _)

theorem paginas_inicial : Paginas (inicial cfg) :=
  ⟨List.nodup_nil, fun _ hp => absurd hp List.not_mem_nil⟩

/-- Only `SUSPENDER_PROCESO` of the same process sends pages to swap. -/
theorem residente_efecto (hI : Paginas m) (hpet : pet ≠ .suspenderProceso pid)
    (h : Residente m pid) (hef : Efecto env m pet m') : Residente m' pid := by
  rw [residente_iff (paginas_efecto hI hef)]
  rw [residente_iff hI] at h
  refine todos_efecto ?_ ?_ ?_ ?_ h hef
  · intro p q hqp hp hpid
    obtain ⟨hmismo, hfila, -⟩ := iguales_de_soloSwap hqp
    rw [← hfila]
    exact hp (hmismo.trans hpid)
  · intro pid' tam inst hcabe _
    exact (nueva_fila pid' inst hcabe).2
  · intro p hp _ hpid
    rw [(suspenderPaginas_resto env m.almacen p).1] at hpid
    exact absurd (hpid ▸ hp) hpet
  · intro p hcabe _ _
    exact sinSwap_desuspender hcabe

/-- A process that Memoria agrees to bring back is resident from then on. -/
theorem residente_desuspendido (hI : Paginas m)
    (hat : atenderPostHandshake env m (.desuspenderProceso pid) =
      some (responder OpCode.desuspensionOk.codigo, m')) : Residente m' pid := by
  have hef := efecto_de_atender hI.pids hat
  rw [residente_iff (paginas_efecto hI hef)]
  rw [atenderPostHandshake, manejarDesuspensionProceso] at hat
  cases hp : buscarProceso m.diccionarioProcesos pid with
  | none =>
    rw [hp] at hat
    have hcodigo : responder OpCode.errorPidNoEncontrado.codigo =
        responder OpCode.desuspensionOk.codigo := congrArg Prod.fst (Option.some.inj hat)
    exact absurd hcodigo (by decide)
  | some p =>
    rw [hp] at hat
    dsimp only at hat
    split at hat
    · have hcodigo : responder OpCode.errorMemoriaInsuficiente.codigo =
          responder OpCode.desuspensionOk.codigo := congrArg Prod.fst (Option.some.inj hat)
      exact absurd hcodigo (by decide)
    · next hcabe =>
        have hm' : _ = m' := congrArg Prod.snd (Option.some.inj hat)
        subst hm'
        intro q hq hpid
        obtain ⟨r, -, rfl⟩ := List.mem_map.mp hq
        have hmueve : (desuspenderPaginas env m.almacen p).2.pid = p.pid :=
          (desuspenderPaginas_resto env m.almacen p).1
        split
        · exact sinSwap_desuspender (Nat.le_of_not_lt hcabe)
        · next hotro =>
            rw [if_neg hotro] at hpid
            rw [hmueve, (buscarProceso_some hp).2] at hotro
            exact absurd hpid hotro

end Efectos

end MemoriaResidencia

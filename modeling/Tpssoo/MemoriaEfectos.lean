import Tpssoo.MemoriaFilas

/-!
# What one request can do

The inversion of the request switch: whatever a handler answers, it leaves stores and page
tables alone, or it is the one request of its kind that changes them, with the guards
that it checked. Invariants are proved by cases on it and never unfold a handler.
-/
namespace MemoriaEfectos

open EnterosC Protocolo RangosBytes MemoriaEstado MemoriaSwap MemoriaPaginacion MemoriaInstrucciones
  MemoriaTraduccion MemoriaPeticiones MemoriaFilas

variable {cfg : Config}

section Metricas

def sinMetricasProceso (p : Proceso cfg) : Proceso cfg := { p with metricas := .cero }

/-- A state up to the metrics of its processes. -/
def sinMetricas (m : Memoria cfg) : Memoria cfg :=
  { m with diccionarioProcesos := m.diccionarioProcesos.map sinMetricasProceso }

/-- A process up to the metrics that no walk of its pages counts. -/
def soloMetricasSwap (p : Proceso cfg) : Proceso cfg :=
  { p with metricas := { Metricas.cero with
      escriturasSwap := p.metricas.escriturasSwap
      lecturasSwap := p.metricas.lecturasSwap } }

/-- The processes of a state, as far as their pages and swap metrics go. -/
def procesos (m : Memoria cfg) : List (Proceso cfg) := m.diccionarioProcesos.map soloMetricasSwap

theorem todasEntradas_soloSwap (ps : List (Proceso cfg)) :
    todasEntradas (ps.map soloMetricasSwap) = todasEntradas ps := by
  simp only [todasEntradas, List.flatMap_map]
  rfl

theorem pids_soloSwap (ps : List (Proceso cfg)) :
    (ps.map soloMetricasSwap).map Proceso.pid = ps.map Proceso.pid := by
  rw [List.map_map]
  rfl

/-- Writing back a process that differs in its other metrics only. -/
theorem modificar_metricas {ps : List (Proceso cfg)} {p : Proceso cfg} {pid : ℤ}
    (hn : (ps.map Proceso.pid).Nodup) (h : buscarProceso ps pid = some p) {x : Metricas}
    (hx : x.escriturasSwap = p.metricas.escriturasSwap ∧
      x.lecturasSwap = p.metricas.lecturasSwap) :
    (modificarProceso ps { p with metricas := x }).map soloMetricasSwap =
      ps.map soloMetricasSwap := by
  rw [modificarProceso, List.map_map]
  apply List.map_congr_left
  intro q hq
  by_cases hpid : q.pid = p.pid
  · have hqp : some q = some p := by
      rw [← buscarProceso_de_mem hn hq, hpid, (buscarProceso_some h).2, h]
    cases hqp
    simp [soloMetricasSwap, hx]
  · simp [hpid]

end Metricas

/-- What one request does to the state, with the guards its handler passed. -/
inductive Efecto (env : Entorno) (m : Memoria cfg) : Peticion → Memoria cfg → Prop
  | quieto {pet m'} (ha : m'.almacen = m.almacen) (hp : procesos m' = procesos m) :
      Efecto env m pet m'
  | escritura {pid marco offset tamanio contenido m'}
      (hcopia : CopiaValida cfg (direccionFisica cfg marco offset) tamanio)
      (hlargo : tamanio ≤ contenido.length)
      (ha : m'.almacen = { m.almacen with
        memoriaUsuario := escribirRango m.almacen.memoriaUsuario
          (direccionFisica cfg marco offset).toNat (contenido.take tamanio.toNat) })
      (hp : procesos m' = procesos m) :
      Efecto env m (.escribirMemoria pid marco offset tamanio contenido) m'
  | alta {pid tam largo path} (inst : List Instruccion)
      (hcabe : paginasRequeridas cfg tam ≤ contarMarcosLibres m.almacen.bitmapMarcos) :
      Efecto env m (.initProc pid tam largo path)
        { m with
          almacen := { m.almacen with
            bitmapMarcos := (crearProceso cfg m.almacen.bitmapMarcos pid tam inst).2 }
          diccionarioProcesos := guardarProceso m.diccionarioProcesos
            (crearProceso cfg m.almacen.bitmapMarcos pid tam inst).1 }
  | baja {pid p} (h : buscarProceso m.diccionarioProcesos pid = some p) :
      Efecto env m (.finalizarProceso pid)
        { m with
          almacen := liberarTablasProceso cfg m.almacen p.tablaNivel1
          diccionarioProcesos := quitarProceso m.diccionarioProcesos pid }
  | suspension {pid p} (h : buscarProceso m.diccionarioProcesos pid = some p) :
      Efecto env m (.suspenderProceso pid) (conPaginas m (suspenderPaginas env m.almacen p))
  | desuspension {pid p} (h : buscarProceso m.diccionarioProcesos pid = some p)
      (hcabe : contarPaginasEnSwap p.tablaNivel1 ≤ contarMarcosLibres m.almacen.bitmapMarcos) :
      Efecto env m (.desuspenderProceso pid) (conPaginas m (desuspenderPaginas env m.almacen p))

section Inversion

variable {env : Entorno} {m m' : Memoria cfg} {envios : List Envio}

theorem contarAcceso_quieto (hn : (m.diccionarioProcesos.map Proceso.pid).Nodup) (pid : ℤ)
    {f : Metricas → Metricas} (hf : ∀ x : Metricas,
      (f x).escriturasSwap = x.escriturasSwap ∧ (f x).lecturasSwap = x.lecturasSwap) :
    (contarAcceso m pid f).almacen = m.almacen ∧ procesos (contarAcceso m pid f) = procesos m ∧
      (contarAcceso m pid f).volcados = m.volcados := by
  unfold contarAcceso
  cases h : buscarProceso m.diccionarioProcesos pid with
  | none => exact ⟨rfl, rfl, rfl⟩
  | some p => exact ⟨rfl, modificar_metricas hn h (hf p.metricas), rfl⟩

theorem instruccion_quieta (hn : (m.diccionarioProcesos.map Proceso.pid).Nodup) {pid pc : ℤ}
    (h : enviarInstruccionSegunPidYPc m pid pc = some (envios, m')) :
    m'.almacen = m.almacen ∧ procesos m' = procesos m ∧ m'.volcados = m.volcados := by
  unfold enviarInstruccionSegunPidYPc at h
  cases hp : buscarProceso m.diccionarioProcesos pid with
  | none => simp [hp] at h
  | some p =>
    simp only [hp, Option.some.injEq, Prod.mk.injEq] at h
    obtain ⟨-, rfl⟩ := h
    exact ⟨rfl, modificar_metricas hn hp ⟨rfl, rfl⟩, rfl⟩

theorem traduccion_quieta (hn : (m.diccionarioProcesos.map Proceso.pid).Nodup) {pid dl : ℤ}
    (h : manejarTraduccionTabla m pid dl = some (envios, m')) :
    m'.almacen = m.almacen ∧ procesos m' = procesos m ∧ m'.volcados = m.volcados := by
  unfold manejarTraduccionTabla at h
  cases hp : buscarProceso m.diccionarioProcesos pid with
  | none =>
    simp only [hp, Option.some.injEq, Prod.mk.injEq] at h
    obtain ⟨-, rfl⟩ := h
    exact ⟨rfl, rfl, rfl⟩
  | some p =>
    simp only [hp, Option.map_eq_some_iff] at h
    obtain ⟨r, -, hr⟩ := h
    cases r <;> simp only [responderTraduccion, Prod.mk.injEq] at hr <;> obtain ⟨-, rfl⟩ := hr
    · exact ⟨rfl, rfl, rfl⟩
    · exact ⟨rfl, rfl, rfl⟩
    · exact ⟨rfl, modificar_metricas hn hp ⟨rfl, rfl⟩, rfl⟩
    · exact ⟨rfl, modificar_metricas hn hp ⟨rfl, rfl⟩, rfl⟩

theorem lectura_quieta (hn : (m.diccionarioProcesos.map Proceso.pid).Nodup)
    {pid marco offset tamanio : ℤ}
    (h : manejarLecturaDireccionFisica m pid marco offset tamanio = some (envios, m')) :
    m'.almacen = m.almacen ∧ procesos m' = procesos m ∧ m'.volcados = m.volcados := by
  unfold manejarLecturaDireccionFisica at h
  simp only [Option.bind_eq_bind, Option.bind_eq_some_iff] at h
  obtain ⟨r, -, hr⟩ := h
  cases r <;> simp only [Option.pure_def, Option.some.injEq, Prod.mk.injEq] at hr <;>
    obtain ⟨-, rfl⟩ := hr <;> exact contarAcceso_quieto hn pid fun _ => ⟨rfl, rfl⟩

theorem escrituraFisica_cases {memoria : List Byte} {direccion tamanio : ℤ} {valor : List Byte}
    {r : Option (List Byte)} (h : escribirMemoriaFisica cfg memoria direccion valor
      tamanio = some r) :
    (FueraDeLimites cfg direccion tamanio ∧ r = none) ∨
      (¬ FueraDeLimites cfg direccion tamanio ∧ CopiaValida cfg direccion tamanio ∧
        r = some (escribirRango memoria direccion.toNat valor)) := by
  unfold escribirMemoriaFisica at h
  split at h
  · rename_i hf
    exact Or.inl ⟨hf, by simpa using h.symm⟩
  · rename_i hf
    split at h
    · rename_i hc
      exact Or.inr ⟨hf, hc, by simpa using h.symm⟩
    · cases h

theorem escritura_cases (hn : (m.diccionarioProcesos.map Proceso.pid).Nodup)
    {pid marco offset tamanio : ℤ} {contenido : List Byte}
    (h : manejarEscrituraDireccionFisica m pid marco offset tamanio contenido = some (envios, m')) :
    (envios = responder ResultadoEjecucion.errorEscrituraMemoria.codigo ∧
      m'.almacen = m.almacen ∧ procesos m' = procesos m ∧ m'.volcados = m.volcados) ∨
    (envios = responder OpCode.operacionEscrituraOk.codigo ∧
      CopiaValida cfg (direccionFisica cfg marco offset) tamanio ∧
      m'.almacen = { m.almacen with
        memoriaUsuario := escribirRango m.almacen.memoriaUsuario
          (direccionFisica cfg marco offset).toNat contenido } ∧
      procesos m' = procesos m) := by
  obtain ⟨ha, hp, hv⟩ := contarAcceso_quieto (m := m) hn pid
    (f := fun x => { x with escriturasMemoria := x.escriturasMemoria + 1 }) fun _ => ⟨rfl, rfl⟩
  unfold manejarEscrituraDireccionFisica at h
  simp only [Option.bind_eq_bind, Option.bind_eq_some_iff] at h
  obtain ⟨r, hr, h⟩ := h
  rcases escrituraFisica_cases hr with ⟨-, rfl⟩ | ⟨-, hc, rfl⟩
  · simp only [Option.pure_def, Option.some.injEq, Prod.mk.injEq] at h
    obtain ⟨rfl, rfl⟩ := h
    exact Or.inl ⟨rfl, ha, hp, hv⟩
  · simp only [Option.pure_def, Option.some.injEq, Prod.mk.injEq] at h
    obtain ⟨rfl, rfl⟩ := h
    refine Or.inr ⟨rfl, hc, ?_, hp⟩
    simp only [conAlmacen, ha]

theorem almacenar_cases {pid tam : ℤ} {path : List Byte}
    (h : almacenarProcesoNuevo env m pid tam path = some (envios, m')) :
    (m' = m ∧ (envios = responder OpCode.noHayMarcosLibres.codigo ∨
      envios = responder OpCode.procesoNoAlmacenado.codigo)) ∨
    ∃ inst, envios = responder OpCode.initProcesoOk.codigo ∧
      paginasRequeridas cfg tam ≤ contarMarcosLibres m.almacen.bitmapMarcos ∧
      m' = { m with
        almacen := { m.almacen with
          bitmapMarcos := (crearProceso cfg m.almacen.bitmapMarcos pid tam inst).2 }
        diccionarioProcesos := guardarProceso m.diccionarioProcesos
          (crearProceso cfg m.almacen.bitmapMarcos pid tam inst).1 } := by
  unfold almacenarProcesoNuevo at h
  dsimp only at h
  split at h
  · simp only [Option.some.injEq, Prod.mk.injEq] at h
    exact Or.inl ⟨h.2.symm, Or.inl h.1.symm⟩
  · rename_i hmarcos
    split at h
    · simp only [Option.some.injEq, Prod.mk.injEq] at h
      exact Or.inl ⟨h.2.symm, Or.inr h.1.symm⟩
    · simp only [Option.bind_eq_bind, Option.bind_eq_some_iff, Option.pure_def, Option.some.injEq,
        Prod.mk.injEq] at h
      obtain ⟨inst, -, rfl, rfl⟩ := h
      refine Or.inr ⟨inst, rfl, ?_, rfl⟩
      omega

theorem dump_quieto (env : Entorno) (m : Memoria cfg) (pid : ℤ) :
    (manejarSolicitudDump env m pid).2.almacen = m.almacen ∧
      procesos (manejarSolicitudDump env m pid).2 = procesos m ∧
      ((manejarSolicitudDump env m pid).1 = false → (manejarSolicitudDump env m pid).2 = m) := by
  unfold manejarSolicitudDump
  cases buscarProceso m.diccionarioProcesos pid with
  | none => exact ⟨rfl, rfl, fun _ => rfl⟩
  | some p =>
    by_cases h : env.dumpAbre <;> simp [h, procesos]

theorem efecto_de_atender (hn : (m.diccionarioProcesos.map Proceso.pid).Nodup) {pet : Peticion}
    (h : atenderPostHandshake env m pet = some (envios, m')) : Efecto env m pet m' := by
  cases pet with
  | pedirInstrucciones pid pc =>
    obtain ⟨ha, hp, -⟩ := instruccion_quieta hn h
    exact .quieto ha hp
  | pedirEspacioLibre =>
    simp only [atenderPostHandshake, enviarEspacioLibre, Option.some.injEq, Prod.mk.injEq] at h
    obtain ⟨-, rfl⟩ := h
    exact .quieto rfl rfl
  | initProc pid tam largo path =>
    simp only [atenderPostHandshake] at h
    split at h
    · cases h
    · rcases almacenar_cases h with ⟨rfl, -⟩ | ⟨inst, -, hcabe, rfl⟩
      · exact .quieto rfl rfl
      · exact .alta inst hcabe
  | traducirTabla pid dl =>
    obtain ⟨ha, hp, -⟩ := traduccion_quieta hn h
    exact .quieto ha hp
  | finalizarProceso pid =>
    simp only [atenderPostHandshake, Option.some.injEq, Prod.mk.injEq, destruirProceso] at h
    obtain ⟨-, h⟩ := h
    cases hp : buscarProceso m.diccionarioProcesos pid with
    | none =>
      rw [hp] at h
      subst h
      exact .quieto rfl rfl
    | some p =>
      rw [hp] at h
      subst h
      exact .baja hp
  | leerMemoria pid marco offset tamanio =>
    obtain ⟨ha, hp, -⟩ := lectura_quieta hn h
    exact .quieto ha hp
  | escribirMemoria pid marco offset tamanio contenido =>
    simp only [atenderPostHandshake] at h
    split at h
    · cases h
    · rename_i hlargo
      rcases escritura_cases hn h with ⟨-, ha, hp, -⟩ | ⟨-, hc, ha, hp⟩
      · exact .quieto ha hp
      · exact .escritura hc (by omega) ha hp
  | suspenderProceso pid =>
    simp only [atenderPostHandshake, manejarSuspensionProceso] at h
    cases hp : buscarProceso m.diccionarioProcesos pid with
    | none =>
      simp only [hp, Option.some.injEq, Prod.mk.injEq] at h
      obtain ⟨-, rfl⟩ := h
      exact .quieto rfl rfl
    | some p =>
      simp only [hp, Option.some.injEq, Prod.mk.injEq] at h
      obtain ⟨-, rfl⟩ := h
      exact .suspension hp
  | desuspenderProceso pid =>
    simp only [atenderPostHandshake, manejarDesuspensionProceso] at h
    cases hp : buscarProceso m.diccionarioProcesos pid with
    | none =>
      simp only [hp, Option.some.injEq, Prod.mk.injEq] at h
      obtain ⟨-, rfl⟩ := h
      exact .quieto rfl rfl
    | some p =>
      simp only [hp] at h
      split at h
      · simp only [Option.some.injEq, Prod.mk.injEq] at h
        obtain ⟨-, rfl⟩ := h
        exact .quieto rfl rfl
      · simp only [Option.some.injEq, Prod.mk.injEq] at h
        obtain ⟨-, rfl⟩ := h
        exact .desuspension hp (by omega)
  | dumpMemory pid =>
    simp only [atenderPostHandshake, Option.some.injEq, Prod.mk.injEq] at h
    obtain ⟨-, rfl⟩ := h
    exact .quieto (dump_quieto env m pid).1 (dump_quieto env m pid).2.1

end Inversion

end MemoriaEfectos

import Tpssoo.CpuCiclo
import Tpssoo.CpuTransparencia

/-!
# Preemption

A run with interrupts against the run of the same process without them. The machine on
frames stands for both: executing an instruction again on what it left changes nothing
more, so an interrupted turn is no step of that machine, unless the instruction reached
the kernel or had already moved the program counter.
-/
namespace CpuDesalojo

open EnterosC Protocolo RangosBytes MemoriaEstado MemoriaInstrucciones MemoriaTraduccion
  MemoriaPeticiones MemoriaFilas MemoriaEfectos MemoriaInvariante CpuEstado CpuTlb CpuCache
    CpuAccesos CpuMemoria CpuRafagas
  CpuTransparencia CpuInstrucciones CpuCiclo Tartamudeo

variable {cfg : Config} {cpu : Cpu} {pid : ℤ} {p : Proceso cfg} {ps : List (Proceso cfg)}
  {vuelve : List Syscall → Bool}

/-- The CPU while it runs `pid`. -/
def maquina (cpu : Cpu) (pid : ℤ) : Maquina (EstadoCpu cfg) where
  fetch s pc := (fetch cpu s.memoria pid pc).map fun r => (r.1, { s with memoria := r.2 })
  acceso s acc := ejecutarAcceso cpu s pid acc
  limpiar s := (limpiarCacheDeProceso cpu s.cache s.memoria pid).map fun r =>
    ⟨limpiarTlb s.tlb, r.1, r.2⟩

/-- The machine on frames, with the program and the pages of `p`. -/
def plana (p : Proceso cfg) : Maquina (ℕ → List Byte) where
  fetch v pc := some ((instruccionEn p.instrucciones pc).map alCpu, v)
  acceso v acc := accesoDirecto p v acc
  limpiar v := some v

/-- The first dispatch of a process. -/
def despachar (s : EstadoCpu cfg) (programCounter : ℤ) : Corrida (EstadoCpu cfg) :=
  ⟨s, programCounter, [], none⟩

/-- The addresses that no table answers for another page's. -/
abbrev Directo (p : Proceso cfg) (acc : Acceso) : Prop := Directa p acc.direccionLogica

/-- A turn at which the defects are out of reach: no interrupt is pending when an
instruction of the kernel finishes, and an access is direct. -/
def TurnoSeguro (p : Proceso cfg) (pendiente : Bool) (c : Corrida (EstadoCpu cfg)) : Prop :=
  c.fin = none → ∀ inst ∈ instruccionEn p.instrucciones c.programCounter,
    AccesoEn (Directo p) (alCpu inst) ∧ (pendiente = true → ¬ Externa (alCpu inst))

instance (pendiente : Bool) (c : Corrida (EstadoCpu cfg)) : Decidable (TurnoSeguro p pendiente c) :=
  inferInstanceAs (Decidable (c.fin = none →
    ∀ inst ∈ instruccionEn p.instrucciones c.programCounter,
    AccesoEn (Directo p) (alCpu inst) ∧ (pendiente = true → ¬ Externa (alCpu inst))))

/-- What is seen of a process: its syscalls and its end, and then user memory. -/
structure MismoResultado (c d : Corrida (EstadoCpu cfg)) : Prop where
  syscalls : c.syscalls = d.syscalls
  fin : c.fin = d.fin
  memoria : c.fin.isSome →
    c.estado.memoria.almacen.memoriaUsuario = d.estado.memoria.almacen.memoriaUsuario

/-- The run with the interrupts of `pendientes` has come as far as some run without
interrupts, of at least the turns that none of them ended. -/
def Transparente (cpu : Cpu) (pid : ℤ) (vuelve : List Syscall → Bool) (c : Corrida (EstadoCpu cfg))
    (pendientes : List Bool) : Prop :=
  ∃ k, pendientes.countP (fun b => !b) ≤ k ∧ k ≤ pendientes.length ∧
    Option.Rel MismoResultado (correr (paso (maquina cpu pid) vuelve) pendientes c)
      (correr (paso (maquina cpu pid) vuelve) (List.replicate k false) c)

section Maquinas

theorem instrucciones_procesos {m m' : Memoria cfg} {q q' : Proceso cfg}
    (h : procesos m' = procesos m) (hq : buscarProceso m.diccionarioProcesos pid = some q)
    (hq' : buscarProceso m'.diccionarioProcesos pid = some q') :
    q'.instrucciones = q.instrucciones := by
  have hbusca := buscar_procesos h pid
  rw [hq, hq', Option.map_some, Option.map_some, Option.some_inj] at hbusca
  have hinst := congrArg (·.instrucciones) hbusca
  exact hinst

/-- The CPU is related to the machine on frames. -/
theorem maquinas_relacionadas {m₀ : Memoria cfg} (cpu : Cpu)
    (halg : cpu.algoritmoCache ≠ .otro)
    (hp : buscarProceso m₀.diccionarioProcesos pid = some p) :
    Relacionadas (maquina cpu pid) (plana p) (Representa pid p (procesos m₀))
      (fun s v => vista s.memoria = v) (Directo p) where
  fetch := by
    intro s v pc h
    obtain ⟨q, hq, -⟩ := h.sana.proceso
    obtain ⟨m', hfetch, hquieta⟩ := fetch_programa cpu h.integra.pids hq pc
    rw [instrucciones_procesos h.procesos hp hq] at hfetch
    change Option.Rel _ ((CpuInstrucciones.fetch cpu s.memoria pid pc).map _) _
    rw [hfetch]
    exact .some ⟨rfl, h.quieta hquieta h.sana.tlb⟩
  acceso := by
    intro s v acc h hdir
    exact acceso_representa halg h hdir
  limpiar := by
    intro s v h
    obtain ⟨cache, m, hlimpia, hvista, hrep⟩ := limpieza_representa cpu h
    change Option.Rel _ ((limpiarCacheDeProceso cpu s.cache s.memoria pid).map _) _
    rw [hlimpia]
    exact .some ⟨hrep, hvista⟩

end Maquinas

/-- The frames of the process hold whole pages. -/
def Paginada (p : Proceso cfg) (v : ℕ → List Byte) : Prop :=
  ∀ dl f, traducir p dl = some (.traduccionOk f) → (v f.toNat).length = cfg.tamPagina

section Repeticion

variable {v v' : ℕ → List Byte} {pc : ℤ} {inst : InstruccionCpu} {e : Ejecutada (ℕ → List Byte)}

theorem copiarAPagina_repetida {pagina contenido datos : List Byte} {offset tamanio : ℤ}
    (hpagina : pagina.length = cfg.tamPagina)
    (h : copiarAPagina cfg pagina offset tamanio datos = some contenido) :
    copiarAPagina cfg contenido offset tamanio datos = some contenido := by
  rw [copiarAPagina] at h
  split at h
  · rename_i hen
    obtain ⟨h₀, h₁, h₂⟩ := hen
    have hcorta : (datos.take tamanio.toNat).length ≤ tamanio.toNat := List.length_take_le _ _
    cases h
    rw [copiarAPagina, if_pos ⟨h₀, h₁, h₂⟩, escribir_escribir (by omega) rfl]
  · cases h

/-- What an access of the machine on frames can be. -/
theorem directo_casos {acc : Acceso} {r : Resultado} (h : accesoDirecto p v acc = some (r, v')) :
    v' = v ∨ ∃ dl datos f contenido, acc = .write dl datos ∧
      ¬ ExcedeLimite cfg dl (aInt datos.length) ∧ traducir p dl = some (.traduccionOk f) ∧
      copiarAPagina cfg (v f.toNat) (obtenerOffset cfg dl) (aInt datos.length) datos =
        some contenido ∧
      r = .hecho [] ∧ v' = Function.update v f.toNat contenido := by
  cases acc with
  | read dl tamanio =>
    left
    rw [accesoDirecto] at h
    split at h
    · cases h
      rfl
    · split at h
      · cases h
      · obtain ⟨datos, -, heq⟩ := Option.map_eq_some_iff.mp h
        cases heq
        rfl
      · cases h
        rfl
  | write dl datos =>
    rw [accesoDirecto] at h
    split at h
    · cases h
      exact Or.inl rfl
    · rename_i hexc
      split at h
      · cases h
      · rename_i f htrad
        obtain ⟨contenido, hcopia, heq⟩ := Option.map_eq_some_iff.mp h
        cases heq
        exact Or.inr ⟨dl, datos, f, contenido, rfl, hexc, htrad, hcopia, rfl, rfl⟩
      · cases h
        exact Or.inl rfl

/-- An access made again on what it left gives the same. -/
theorem acceso_repetido (hv : Paginada p v) {acc : Acceso} {r : Resultado}
    (h : accesoDirecto p v acc = some (r, v')) : accesoDirecto p v' acc = some (r, v') := by
  rcases directo_casos h with rfl | ⟨dl, datos, f, contenido, rfl, hexc, htrad, hcopia, rfl, rfl⟩
  · exact h
  · rw [directo_write hexc htrad, Function.update_self,
      copiarAPagina_repetida (hv dl f htrad) hcopia, Option.map_some, Function.update_idem]

theorem acceso_paginada (hv : Paginada p v) {acc : Acceso} {r : Resultado}
    (h : accesoDirecto p v acc = some (r, v')) : Paginada p v' := by
  rcases directo_casos h with rfl | ⟨dl, datos, f, contenido, rfl, -, htrad, hcopia, rfl, rfl⟩
  · exact hv
  · intro dl' f' htrad'
    by_cases hf : f'.toNat = f.toNat
    · rw [hf, Function.update_self]
      exact length_copiarAPagina (hv dl f htrad) hcopia
    · rw [Function.update_of_ne hf]
      exact hv dl' f' htrad'

/-- An instruction executed again on what it left gives the same. -/
theorem ejecutar_repetida (hv : Paginada p v)
    (h : ejecutarInstruccion (plana p) v pc inst = some e) :
    ejecutarInstruccion (plana p) e.estado pc inst = some e ∧ Paginada p e.estado := by
  cases forma pc inst with
  | indefinida hno =>
    rw [hno] at h
    cases h
  | propia r pc' io nuevas hsi _ =>
    rw [hsi] at h ⊢
    cases h
    exact ⟨rfl, hv⟩
  | acceso opcode acc hop hacc hde heq =>
    rw [heq, hacerAcceso] at h
    obtain ⟨⟨r, v'⟩, hdir, hfin⟩ := Option.map_eq_some_iff.mp h
    cases hfin
    have hrep : (plana p).acceso v' acc = some (r, v') := acceso_repetido hv hdir
    refine ⟨?_, acceso_paginada hv hdir⟩
    rw [heq, hacerAcceso, hrep]
    rfl

/-- An instruction that stays in the process is a jump, or leaves the program counter. -/
theorem ejecutar_interna {σ : Type} {M : Maquina σ} {s : σ} {e : Ejecutada σ}
    (hint : ¬ Externa inst)
    (h : ejecutarInstruccion M s pc inst = some e) :
    e.syscalls = [] ∧ (cadenaC inst.opcode = some opGoto ∧ e.resultado = .ejecucionOk ∨
      cadenaC inst.opcode ≠ some opGoto ∧ e.programCounter = pc) := by
  cases forma pc inst with
  | indefinida hno =>
    rw [hno] at h
    cases h
  | propia r pc' io nuevas hsi hprop =>
    rw [hsi] at h
    cases h
    exact hprop hint
  | acceso opcode acc hop hacc hde heq =>
    rw [heq, hacerAcceso] at h
    obtain ⟨x, -, hfin⟩ := Option.map_eq_some_iff.mp h
    cases hfin
    refine ⟨rfl, Or.inr ⟨?_, rfl⟩⟩
    rw [hop]
    rcases hacc with rfl | rfl
    · decide
    · decide

end Repeticion

section Simulacion

variable {w : ℕ → List Byte} {t : Corrida (ℕ → List Byte)}

/-- Frames that are those of `t`, or those that its next instruction leaves. -/
def Atrasada (p : Proceso cfg) (t : Corrida (ℕ → List Byte)) (w : ℕ → List Byte) : Prop :=
  w = t.estado ∨ (t.fin = none ∧ ∃ inst e, instruccionEn p.instrucciones t.programCounter =
    some inst ∧
    ejecutarInstruccion (plana p) t.estado t.programCounter (alCpu inst) = some e ∧ w = e.estado)

theorem vuelta_plana (p : Proceso cfg) (pendiente : Bool) (v : ℕ → List Byte) {pc : ℤ}
    {inst : Instruccion} (hinst : instruccionEn p.instrucciones pc = some inst) :
    vuelta (plana p) pendiente v pc =
      (ejecutarInstruccion (plana p) v pc (alCpu inst)).map (cerrarVuelta pendiente
        (alCpu inst)) := by
  have hfetch : (plana p).fetch v pc = some (some (alCpu inst), v) := by
    change some ((instruccionEn p.instrucciones pc).map alCpu, v) = _
    rw [hinst, Option.map_some]
  rw [vuelta, hfetch]
  rfl

theorem vuelta_plana_fuera (p : Proceso cfg) (pendiente : Bool) (v : ℕ → List Byte) {pc : ℤ}
    (hinst : instruccionEn p.instrucciones pc = none) :
    vuelta (plana p) pendiente v pc =
      some (.termina v ⟨pc, ResultadoEjecucion.errorEjecucionFatal.codigo, none⟩ []) := by
  have hfetch : (plana p).fetch v pc = some (none, v) := by
    change some ((instruccionEn p.instrucciones pc).map alCpu, v) = _
    rw [hinst, Option.map_none]
  rw [vuelta, hfetch]
  rfl

/-- The frames of a delayed run are not seen by its next turn. -/
theorem paso_atrasada (hv : Paginada p t.estado) (h : Atrasada p t w) (pendiente : Bool) :
    paso (plana p) vuelve pendiente { t with estado := w } = paso (plana p) vuelve pendiente t := by
  rcases h with rfl | ⟨hfin, inst, e, hinst, he, rfl⟩
  · rfl
  · have hvuelta : vuelta (plana p) pendiente e.estado t.programCounter =
        vuelta (plana p) pendiente t.estado t.programCounter := by
      rw [vuelta_plana p _ _ hinst, vuelta_plana p _ _ hinst, (ejecutar_repetida hv he).1, he]
    have hsigue : ¬ t.fin.isSome := by
      rw [hfin]
      exact Bool.false_ne_true
    rw [paso, paso, if_neg hsigue, if_neg hsigue, hvuelta]

/-- An interrupted turn of an instruction that stays in the process is the turn without the
interrupt, or leaves the process where it was. -/
theorem paso_interrumpido (vuelve : List Syscall → Bool) (hfin : t.fin = none)
    (hint : ∀ inst, instruccionEn p.instrucciones t.programCounter = some inst →
      ¬ Externa (alCpu inst)) :
    paso (plana p) vuelve true t = paso (plana p) vuelve false t ∨
    ∃ w, paso (plana p) vuelve true t = some { t with estado := w } ∧ Atrasada p t w := by
  have hsigue : ¬ t.fin.isSome := by
    rw [hfin]
    exact Bool.false_ne_true
  rw [paso, paso, if_neg hsigue, if_neg hsigue]
  cases hinst : instruccionEn p.instrucciones t.programCounter with
  | none =>
    left
    rw [vuelta_plana_fuera p _ _ hinst, vuelta_plana_fuera p _ _ hinst]
  | some inst =>
    rw [vuelta_plana p _ _ hinst, vuelta_plana p _ _ hinst]
    cases he : ejecutarInstruccion (plana p) t.estado t.programCounter (alCpu inst) with
    | none => exact Or.inl rfl
    | some e =>
      obtain ⟨hsys, ⟨hgoto, hok⟩ | ⟨-, hpc⟩⟩ := ejecutar_interna (hint inst hinst) he
      · -- a jump has moved the program counter already
        left
        rw [Option.map_some, Option.map_some, Option.bind_some, Option.bind_some,
          cerrarTurno_interrupcion, cerrarTurno_salto vuelve t.syscalls hgoto hok]
        rfl
      · right
        refine ⟨e.estado, ?_, Or.inr ⟨hfin, inst, e, hinst, he, rfl⟩⟩
        rw [Option.map_some, Option.bind_some, cerrarTurno_interrupcion, hsys, hpc, List.append_nil,
          hfin]
        rfl

theorem paso_paginada {t' : Corrida (ℕ → List Byte)} {pendiente : Bool} (hv : Paginada p t.estado)
    (h : paso (plana p) vuelve pendiente t = some t') : Paginada p t'.estado := by
  have hcierre : ∀ x : Vuelta (ℕ → List Byte), (∀ v pc nuevas, x = .sigue v pc nuevas →
      Paginada p v) →
      (∀ v r nuevas, x = .termina v r nuevas → Paginada p v) →
      cerrarTurno (plana p) vuelve t.syscalls x = some t' → Paginada p t'.estado := by
    intro x hsigue htermina hx
    cases x with
    | sigue v pc nuevas =>
      cases hx
      exact hsigue v pc nuevas rfl
    | termina v r nuevas =>
      rw [cerrarTurno] at hx
      obtain ⟨v', hlimpia, hresto⟩ := Option.bind_eq_some_iff.mp hx
      obtain ⟨y, -, hfin⟩ := Option.bind_eq_some_iff.mp hresto
      cases hlimpia
      cases hfin
      exact htermina v r nuevas rfl
  rw [paso] at h
  split at h
  · cases h
    exact hv
  · obtain ⟨x, hx, hcerrar⟩ := Option.bind_eq_some_iff.mp h
    cases hinst : instruccionEn p.instrucciones t.programCounter with
    | none =>
      rw [vuelta_plana_fuera p _ _ hinst] at hx
      cases hx
      refine hcierre _ (fun v pc nuevas heq => by cases heq) (fun v r nuevas heq => ?_) hcerrar
      cases heq
      exact hv
    | some inst =>
      rw [vuelta_plana p _ _ hinst] at hx
      obtain ⟨e, he, rfl⟩ := Option.map_eq_some_iff.mp hx
      have hve := (ejecutar_repetida hv he).2
      refine hcierre _ (fun v pc nuevas heq => ?_) (fun v r nuevas heq => ?_) hcerrar
      · rw [cerrarVuelta] at heq
        split at heq <;> cases heq
        exact hve
      · rw [cerrarVuelta] at heq
        split at heq <;> cases heq
        exact hve

/-- A process on the CPU, and where it is on the machine on frames. -/
structure Acompanada (pid : ℤ) (p : Proceso cfg) (ps : List (Proceso cfg))
    (c : Corrida (EstadoCpu cfg))
    (t : Corrida (ℕ → List Byte)) : Prop where
  paginada : Paginada p t.estado
  marcos : ∃ w, Atrasada p t w ∧ MismaCorrida (Representa pid p ps)
      (fun s v => vista s.memoria = v) c
    { t with estado := w }

/-- The accesses of the next turn are direct. -/
def TurnoDirecto (p : Proceso cfg) (t : Corrida (ℕ → List Byte)) : Prop :=
  t.fin = none → ∀ inst, instruccionEn p.instrucciones t.programCounter = some inst →
    AccesoEn (Directo p) (alCpu inst)

/-- A turn of the CPU is a turn of the machine on frames, with the same interrupt. -/
theorem paso_acompanado {m₀ : Memoria cfg} {c : Corrida (EstadoCpu cfg)}
    (vuelve : List Syscall → Bool) (halg : cpu.algoritmoCache ≠ .otro)
    (hp : buscarProceso m₀.diccionarioProcesos pid = some p)
    (h : Acompanada pid p (procesos m₀) c t) (ht : TurnoDirecto p t) (pendiente : Bool) :
    Option.Rel (MismaCorrida (Representa pid p (procesos m₀)) fun s v => vista s.memoria = v)
      (paso (maquina cpu pid) vuelve pendiente c) (paso (plana p) vuelve pendiente t) := by
  obtain ⟨w, hw, hmisma⟩ := h.marcos
  have hrel := maquinas_relacionadas cpu halg hp
  rw [← paso_atrasada h.paginada hw]
  refine paso_relacionadas hrel pendiente hmisma ?_
  intro hfin s' inst hfetch
  have hpar := hrel.fetch c.estado w c.programCounter hmisma.estado
  rw [hfetch] at hpar
  obtain ⟨hinst, -⟩ := hpar
  obtain ⟨inst', hinst', rfl⟩ := Option.map_eq_some_iff.mp hinst.symm
  have hnone : t.fin = none := by
    rw [hmisma.fin] at hfin
    exact Option.not_isSome_iff_eq_none.mp hfin
  have hpc : c.programCounter = t.programCounter := hmisma.programCounter
  rw [hpc] at hinst'
  exact ht hnone inst' hinst'

theorem acompanada_de_misma {c : Corrida (EstadoCpu cfg)} (hv : Paginada p t.estado)
    (h : MismaCorrida (Representa pid p ps) (fun s v => vista s.memoria = v) c t) :
    Acompanada pid p ps c t where
  paginada := hv
  marcos := ⟨t.estado, Or.inl rfl, h⟩

theorem desalojo_simula {m₀ : Memoria cfg} (vuelve : List Syscall → Bool)
    (halg : cpu.algoritmoCache ≠ .otro)
    (hp : buscarProceso m₀.diccionarioProcesos pid = some p) :
    Simula (paso (maquina cpu pid) vuelve) (paso (plana p) vuelve false)
      (Acompanada pid p (procesos m₀)) (TurnoSeguro p) (TurnoDirecto p) (fun b => !b) := by
  have hpermite : ∀ (b : Bool) (c : Corrida (EstadoCpu cfg)) (t : Corrida (ℕ → List Byte)),
      Acompanada pid p (procesos m₀) c t → TurnoSeguro p b c → TurnoDirecto p t := by
    intro b c t h hseg hfin inst hinst
    obtain ⟨w, -, hmisma⟩ := h.marcos
    refine (hseg ?_ inst ?_).1
    · rw [hmisma.fin]
      exact hfin
    · rw [hmisma.programCounter]
      exact hinst
  have hjuntos : ∀ (b : Bool) (c : Corrida (EstadoCpu cfg)) (t : Corrida (ℕ → List Byte)),
      Acompanada pid p (procesos m₀) c t → TurnoDirecto p t →
      paso (plana p) vuelve b t = paso (plana p) vuelve false t →
      Option.Rel (Acompanada pid p (procesos m₀)) (paso (maquina cpu pid) vuelve b c)
        (paso (plana p) vuelve false t) := by
    intro b c t h ht heq
    have hrel := paso_acompanado vuelve halg hp h ht b
    rw [heq] at hrel
    rcases hx : paso (maquina cpu pid) vuelve b c with _ | c' <;>
      rcases hy : paso (plana p) vuelve false t with _ | t' <;> rw [hx, hy] at hrel
    · exact .none
    · cases hrel
    · cases hrel
    · obtain ⟨hmisma⟩ := hrel
      exact .some (acompanada_de_misma (paso_paginada h.paginada hy) hmisma)
  refine ⟨hpermite, ?_, ?_⟩
  · intro b c t h hseg hb
    have hfalso : b = false := by simpa using hb
    subst hfalso
    exact hjuntos false c t h (hpermite false c t h hseg) rfl
  · intro b c t h hseg
    have ht := hpermite b c t h hseg
    cases b with
    | false => exact Or.inl (hjuntos false c t h ht rfl)
    | true =>
      obtain ⟨w, hw, hmisma⟩ := h.marcos
      by_cases hfin : t.fin = none
      · have hint : ∀ inst, instruccionEn p.instrucciones t.programCounter = some inst →
            ¬ Externa (alCpu inst) := by
          intro inst hinst
          refine (hseg ?_ inst ?_).2 rfl
          · rw [hmisma.fin]
            exact hfin
          · rw [hmisma.programCounter]
            exact hinst
        rcases paso_interrumpido vuelve hfin hint with heq | ⟨w', heq, hw'⟩
        · exact Or.inl (hjuntos true c t h ht heq)
        · right
          have hrel := paso_acompanado vuelve halg hp h ht true
          rw [heq] at hrel
          rcases hx : paso (maquina cpu pid) vuelve true c with _ | c' <;> rw [hx] at hrel
          · cases hrel
          · obtain ⟨hmisma'⟩ := hrel
            exact .some ⟨h.paginada, w', hw', hmisma'⟩
      · have hsome : t.fin.isSome := Option.isSome_iff_ne_none.mpr hfin
        have heq : paso (plana p) vuelve true t = paso (plana p) vuelve false t := by
          rw [paso, paso, if_pos hsome, if_pos hsome]
        exact Or.inl (hjuntos true c t h ht heq)

end Simulacion

section Corridas

variable {s : EstadoCpu cfg} {pendientes : List Bool}

theorem paginada_vista {m : Memoria cfg} (hm : Invariante m)
    (hp : buscarProceso m.diccionarioProcesos pid = some p) : Paginada p (vista m) := by
  intro dl f htrad
  obtain ⟨e, he, hpres, rfl⟩ := asignado_de_traducir htrad
  have hmem : e ∈ todasEntradas m.diccionarioProcesos :=
    List.mem_flatMap.mpr ⟨p, (buscarProceso_some hp).1, he⟩
  have hrango := marco_rango hm.entradas hmem hpres
  exact length_marcosDe hm.entradas.memoria (by omega)

theorem acompanada_despachar (hm : Invariante s.memoria) (hs : MmuLimpia s)
    (hp : buscarProceso s.memoria.diccionarioProcesos pid = some p) (pc : ℤ) :
    Acompanada pid p (procesos s.memoria) (despachar s pc) (⟨vista s.memoria, pc, [], none⟩) :=
  acompanada_de_misma (paginada_vista hm hp)
    ⟨rfl, rfl, rfl, representa_limpia hm hs hp ⟨rfl, rfl⟩, fun _ => rfl⟩

/-- While every turn is safe, interrupts are not seen. -/
theorem desalojo_transparente (vuelve : List Syscall → Bool) (pc : ℤ)
    (halg : cpu.algoritmoCache ≠ .otro) (hm : Alcanzable s.memoria) (hs : MmuLimpia s)
    (hp : buscarProceso s.memoria.diccionarioProcesos pid = some p)
    (hseg : Cumple (paso (maquina cpu pid) vuelve) (TurnoSeguro p) pendientes (despachar s pc)) :
    Transparente cpu pid vuelve (despachar s pc) pendientes := by
  have hdirecto : ∀ (c : Corrida (EstadoCpu cfg)) (t : Corrida (ℕ → List Byte)),
      Acompanada pid p (procesos s.memoria) c t → TurnoDirecto p t → TurnoSeguro p false c := by
    intro c t h ht hfin inst hinst
    obtain ⟨w, -, hmisma⟩ := h.marcos
    refine ⟨ht ?_ inst ?_, fun hno => by cases hno⟩
    · rw [← hfin]
      exact hmisma.fin.symm
    · rw [← hinst]
      exact congrArg _ hmisma.programCounter.symm
  obtain ⟨k, hmin, hmax, hrel⟩ := corridas_juntas (desalojo_simula vuelve halg hp) rfl
    hdirecto (acompanada_despachar (invariante_de_alcanzable hm) hs hp pc) hseg
  refine ⟨k, hmin, hmax, ?_⟩
  rcases hx : correr (paso (maquina cpu pid) vuelve) pendientes (despachar s pc) with _ | c <;>
    rcases hy : correr (paso (maquina cpu pid) vuelve) (List.replicate k false)
        (despachar s pc) with
      _ | d <;> rw [hx, hy] at hrel
  · exact .none
  · cases hrel
  · cases hrel
  · obtain ⟨t, hc, hd⟩ := hrel
    obtain ⟨w, hw, hmisma⟩ := hc.marcos
    obtain ⟨w', hw', hmisma'⟩ := hd.marcos
    refine .some ⟨hmisma.syscalls.trans hmisma'.syscalls.symm,
      hmisma.fin.trans hmisma'.fin.symm, ?_⟩
    intro hfin
    have hfin' : d.fin.isSome := by
      rw [hmisma'.fin, ← hmisma.fin]
      exact hfin
    -- a process that ended is not delayed
    have hjusta : ∀ x, Atrasada p t x → x = t.estado := by
      rintro x (hx | ⟨hnone, -⟩)
      · exact hx
      · rw [hmisma.fin] at hfin
        change t.fin.isSome at hfin
        rw [hnone] at hfin
        cases hfin
    have hvista : vista c.estado.memoria = vista d.estado.memoria := by
      rw [hmisma.limpio hfin, hmisma'.limpio hfin']
      exact (hjusta w hw).trans (hjusta w' hw').symm
    exact memoria_ext hvista

/-- `WRITE 0 A`, `GOTO 2`, `INIT_PROC c 10` and `EXIT`. -/
def entornoPrograma : Entorno :=
  ⟨fun _ => some [87, 82, 73, 84, 69, 32, 48, 32, 65, 10, 71, 79, 84, 79, 32, 50, 10,
    73, 78, 73, 84, 95, 80, 82, 79, 67, 32, 99, 32, 49, 48, 10, 69, 88, 73, 84, 10], true,
    fun _ => accesoCorrecto⟩

/-- Interrupts at the write, twice, and at the jump. -/
theorem desalojo_transparente_ejemplo :
    ∃ m : Memoria configEjemplo,
      ejecutar (inicial configEjemplo) [(entornoPrograma, .initProc 1 8 0 [])] = some m ∧
      Transparente cpuEjemplo 1 (fun _ => true) (despachar (iniciarMmu 1 1 m) 0)
        [true, true, false, true, false, false] := by
  have hm : ((ejecutar (inicial configEjemplo) [(entornoPrograma, .initProc 1 8 0 [])]).any fun m =>
      (buscarProceso m.diccionarioProcesos 1).any fun p =>
        decide (Cumple (paso (maquina cpuEjemplo 1) fun _ => true) (TurnoSeguro p)
          [true, true, false, true, false, false] (despachar (iniciarMmu 1 1 m) 0))) = true := by
    decide +kernel
  obtain ⟨m, hrun, hm⟩ := (Option.any_eq_true _ _).mp hm
  obtain ⟨p, hp, hm⟩ := (Option.any_eq_true _ _).mp hm
  refine ⟨m, hrun, desalojo_transparente _ 0 (by decide) (alcanzable_ejecutar _ .inicial hrun)
    (mmuLimpia_iniciar 1 1 m) hp (of_decide_eq_true hm)⟩

/-- An interrupt is pending when `INIT_PROC` finishes: the kernel creates two processes. -/
theorem desalojo_repite :
    ¬ ∀ (s : EstadoCpu configEjemplo) (pid pc : ℤ) (p : Proceso configEjemplo)
      (pendientes : List Bool), Alcanzable s.memoria → MmuLimpia s →
      buscarProceso s.memoria.diccionarioProcesos pid = some p →
      Transparente cpuEjemplo pid (fun _ => true) (despachar s pc) pendientes := by
  intro h
  have hm : ((ejecutar (inicial configEjemplo) [(entornoPrograma, .initProc 1 8 0 [])]).any fun m =>
      (buscarProceso m.diccionarioProcesos 1).any fun _ =>
        let correrla := fun bs => correr (paso (maquina cpuEjemplo 1) fun _ => true) bs
          (despachar (iniciarMmu 1 1 m) 2)
        (correrla [true, false, false]).any fun c =>
          c.syscalls == [.initProc [99] 10, .initProc [99] 10, .exit] &&
          (List.range 4).all fun k =>
            (correrla (List.replicate k false)).all fun d => d.syscalls != c.syscalls) = true := by
    decide +kernel
  obtain ⟨m, hrun, hm⟩ := (Option.any_eq_true _ _).mp hm
  obtain ⟨p, hp, hm⟩ := (Option.any_eq_true _ _).mp hm
  obtain ⟨c, hc, hm⟩ := (Option.any_eq_true _ _).mp hm
  rw [Bool.and_eq_true, List.all_eq_true] at hm
  dsimp only at hc hm
  obtain ⟨k, -, hmax, hrel⟩ := h (iniciarMmu 1 1 m) 1 2 p [true, false, false]
    (alcanzable_ejecutar _ .inicial hrun) (mmuLimpia_iniciar 1 1 m) hp
  rw [hc] at hrel
  have hk := hm.2 k (List.mem_range.mpr (Nat.lt_succ_of_le hmax))
  rcases hd : correr (paso (maquina cpuEjemplo 1) fun _ => true) (List.replicate k false)
    (despachar (iniciarMmu 1 1 m) 2) with _ | d
  · rw [hd] at hrel
    cases hrel
  · rw [hd] at hrel hk
    obtain ⟨hmismo⟩ := hrel
    simp [hmismo.syscalls] at hk

end Corridas

end CpuDesalojo

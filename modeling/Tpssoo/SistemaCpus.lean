import Mathlib.Data.Fintype.Basic
import Mathlib.Data.Fintype.Fin
import Tpssoo.MemoriaPropia

/-!
# Several CPUs over one Memoria

The CPU modules run bursts, each with its own TLB and cache, and Memoria handles the requests
of the kernel between their turns, in any order. What is seen of a process since Memoria
admitted it is written down, turn by turn.
-/
namespace SistemaCpus

open EnterosC Protocolo MemoriaEstado MemoriaPaginacion MemoriaPeticiones MemoriaInvariante
open MemoriaAdmision MemoriaContenido MemoriaVolcado
  MemoriaResidencia CpuEstado CpuAccesos CpuInstrucciones CpuCiclo CpuDesalojo CpuGiros CpuAjena
  MemoriaPropia
open SistemaConjunto (deCpu)

/-- A CPU module: its tables, and the process and the program counter of its burst. -/
structure Nucleo where
  tlb : Tlb
  cache : Cache
  rafaga : Option (ℤ × ℤ)

/-- What is seen of a process: the contents of the pages that it was given, and its turns. -/
structure Vida where
  memoria : List Byte
  giros : List Giro

structure Equipo (cfg : Config) (ι : Type) where
  nucleos : ι → Nucleo
  memoria : Memoria cfg
  vidas : ℤ → Vida

inductive Evento (ι : Type) where
  | atiende (env : Entorno) (peticion : Peticion)
  | recibe (i : ι) (pid programCounter : ℤ)
  | gira (i : ι) (pendiente : Bool)

variable {cfg : Config} {ι : Type} [DecidableEq ι]

def Equipo.cpu (s : Equipo cfg ι) (i : ι) : EstadoCpu cfg :=
  ⟨(s.nucleos i).tlb, (s.nucleos i).cache, s.memoria⟩

def Equipo.conCpu (s : Equipo cfg ι) (i : ι) (x : EstadoCpu cfg) (rafaga : Option (ℤ × ℤ)) :
    Equipo cfg ι :=
  { s with
    nucleos := Function.update s.nucleos i ⟨x.tlb, x.cache, rafaga⟩
    memoria := x.memoria }

/-- CPU `i` is in a burst of `pid`. -/
def Corre (s : Equipo cfg ι) (i : ι) (pid : ℤ) : Prop :=
  (s.nucleos i).rafaga.map Prod.fst = some pid

instance (s : Equipo cfg ι) (i : ι) (pid : ℤ) : Decidable (Corre s i pid) :=
  inferInstanceAs (Decidable (_ = _))

def nueva (m : Memoria cfg) (pid : ℤ) : Vida :=
  ⟨((buscarProceso m.diccionarioProcesos pid).map fun p =>
    imagen m pid (paginasDadas cfg p.tamProceso)).getD [], []⟩

/-- A process that is admitted has not been seen yet. -/
def renacer (vidas : ℤ → Vida) (envios : List Envio) (m : Memoria cfg) : Peticion → ℤ → Vida
  | .initProc pid _ _ _ =>
    if envios = responder OpCode.initProcesoOk.codigo then
      Function.update vidas pid (nueva m pid) else vidas
  | _ => vidas

def Vida.con (v : Vida) (g : Giro) : Vida := { v with giros := v.giros ++ [g] }

/-- One step. A CPU cleans its tables before it starts a burst and after it ends one. -/
def paso (cpus : ι → Cpu) : Evento ι → Equipo cfg ι → Option (Equipo cfg ι)
  | .atiende env peticion, s =>
    if deCpu peticion then none
    else
      (atenderPostHandshake env s.memoria peticion).map fun r =>
        { s with memoria := r.2, vidas := renacer s.vidas r.1 r.2 peticion }
  | .recibe i pid pc, s =>
    match (s.nucleos i).rafaga with
    | some _ => none
    | none => ((maquina (cpus i) pid).limpiar (s.cpu i)).map fun x => s.conCpu i x (some (pid, pc))
  | .gira i pendiente, s =>
    match (s.nucleos i).rafaga with
    | none => none
    | some (pid, pc) =>
      (giro (maquina (cpus i) pid) pendiente (s.cpu i) pc).map fun r =>
        { s.conCpu i r.2 (r.1.sigue.map fun pc' => (pid, pc')) with
          vidas := Function.update s.vidas pid ((s.vidas pid).con r.1) }

/-- The modules have started, with tables of the configured sizes. -/
def arranque (cfg : Config) (entradasTlb entradasCache : ι → ℤ) : Equipo cfg ι where
  nucleos i :=
    let x := iniciarMmu (entradasTlb i) (entradasCache i) (inicial cfg)
    ⟨x.tlb, x.cache, none⟩
  memoria := inicial cfg
  vidas _ := ⟨[], []⟩

section Promesas

/-- No `fseek` to the slot of a page going out is refused. -/
def SlotsBien (m : Memoria cfg) (env : Entorno) : Peticion → Prop
  | .suspenderProceso pid => ∀ p ∈ buscarProceso m.diccionarioProcesos pid,
    ∀ slot ∈ tomarSlots env.swap 0 (p.entradas.countP EntradaTabla.presente) m.almacen.bitmapSwap,
      SeekBien cfg slot
  | _ => True

/-- What the kernel sees to: a new PID, a process that no CPU runs when its pages move, a
process with its pages in frames when it is dispatched, to one CPU only; and the sizes and
addresses that the defects do not reach. -/
def Promete : Evento ι → Equipo cfg ι → Prop
  | .atiende env peticion, s => PidFresco s.memoria peticion ∧ TamanioBien cfg peticion ∧
      SlotsBien s.memoria env peticion ∧ ∀ pid ∈ mueve peticion, ∀ i, ¬ Corre s i pid
  | .recibe _ pid _, s => (buscarProceso s.memoria.diccionarioProcesos pid).isSome ∧
      Residente s.memoria pid ∧ ∀ i, ¬ Corre s i pid
  | .gira i _, s => ∀ r ∈ (s.nucleos i).rafaga,
      ∀ p ∈ buscarProceso s.memoria.diccionarioProcesos r.1,
        ∀ inst ∈ instruccionEn p.instrucciones r.2, AccesoEn (Bien cfg) (alCpu inst)

instance (m : Memoria cfg) (pid : ℤ) : Decidable (Residente m pid) :=
  inferInstanceAs (Decidable (∀ p ∈ buscarProceso m.diccionarioProcesos pid,
    contarPaginasPresentes p.tablaNivel1 = paginasDadas cfg p.tamProceso ∧
      contarPaginasEnSwap p.tablaNivel1 = 0))

instance (tam : ℤ) : Decidable (TamanioAdmisible cfg tam) :=
  decidable_of_iff (0 ≤ paginasRequeridas cfg tam ∧
    paginasRequeridas cfg tam ≤ cfg.paginasDireccionables ∧
    (paginasRequeridas cfg tam = 0 ∨ cfg.nivelesInferiores * cfg.bitsPorNivel < 32))
    (by rw [TamanioAdmisible, paginasRequeridas_eq_ceil])

instance : ∀ pet : Peticion, Decidable (TamanioBien cfg pet)
  | .initProc _ tam _ _ => inferInstanceAs (Decidable (TamanioAdmisible cfg tam))
  | .pedirInstrucciones _ _ | .pedirEspacioLibre | .traducirTabla _ _ | .finalizarProceso _
  | .leerMemoria _ _ _ _ | .escribirMemoria _ _ _ _ _ | .suspenderProceso _
  | .desuspenderProceso _ | .dumpMemory _ => isTrue trivial

instance (m : Memoria cfg) (env : Entorno) : ∀ pet : Peticion, Decidable (SlotsBien m env pet)
  | .suspenderProceso pid => inferInstanceAs (Decidable
      (∀ p ∈ buscarProceso m.diccionarioProcesos pid,
        ∀ slot ∈ tomarSlots env.swap 0 (p.entradas.countP EntradaTabla.presente)
          m.almacen.bitmapSwap, SeekBien cfg slot))
  | .pedirInstrucciones _ _ | .pedirEspacioLibre | .traducirTabla _ _ | .finalizarProceso _
  | .leerMemoria _ _ _ _ | .escribirMemoria _ _ _ _ _ | .initProc _ _ _ _
  | .desuspenderProceso _ | .dumpMemory _ => isTrue trivial

instance [Fintype ι] : ∀ (e : Evento ι) (s : Equipo cfg ι), Decidable (Promete e s)
  | .atiende env peticion, s => inferInstanceAs (Decidable (PidFresco s.memoria peticion ∧
      TamanioBien cfg peticion ∧ SlotsBien s.memoria env peticion ∧
      ∀ pid ∈ mueve peticion, ∀ i, ¬ Corre s i pid))
  | .recibe _ pid _, s => inferInstanceAs (Decidable (_ ∧ Residente s.memoria pid ∧
      ∀ i, ¬ Corre s i pid))
  | .gira i _, s => inferInstanceAs (Decidable (∀ r ∈ (s.nucleos i).rafaga,
      ∀ p ∈ buscarProceso s.memoria.diccionarioProcesos r.1,
        ∀ inst ∈ instruccionEn p.instrucciones r.2, AccesoEn (Bien cfg) (alCpu inst)))

/-- The requests of the run meet no failure of the swap file. -/
def SinFallas (cfg : Config) : Evento ι → Prop
  | .atiende env _ => env.SinFallas cfg
  | _ => True

theorem operacionesBien {m m' : Memoria cfg} {env : Entorno} {pet : Peticion}
    (hfallas : env.SinFallas cfg) (hslots : SlotsBien m env pet) :
    OperacionesBien m env pet m' := by
  refine ⟨hfallas, ?_⟩
  rintro pid p rfl hp
  exact hslots p hp

end Promesas

section Inversion

variable {cpus : ι → Cpu} {s s' : Equipo cfg ι} {i : ι}

theorem atiende_casos {env : Entorno} {pet : Peticion}
    (h : paso cpus (.atiende env pet) s = some s') :
    deCpu pet = false ∧ ∃ envios m', atenderPostHandshake env s.memoria pet = some (envios, m') ∧
      s' = { s with memoria := m', vidas := renacer s.vidas envios m' pet } := by
  rw [paso] at h
  split at h
  · cases h
  · next hcpu =>
      obtain ⟨⟨envios, m'⟩, hat, rfl⟩ := Option.map_eq_some_iff.mp h
      exact ⟨by simpa using hcpu, envios, m', hat, rfl⟩

theorem recibe_casos {pid pc : ℤ} (h : paso cpus (.recibe i pid pc) s = some s') :
    (s.nucleos i).rafaga = none ∧ ∃ x, (maquina (cpus i) pid).limpiar (s.cpu i) = some x ∧
      s' = s.conCpu i x (some (pid, pc)) := by
  rw [paso] at h
  split at h
  · cases h
  · next hlibre =>
      obtain ⟨x, hx, rfl⟩ := Option.map_eq_some_iff.mp h
      exact ⟨hlibre, x, hx, rfl⟩

theorem gira_casos {pendiente : Bool} (h : paso cpus (.gira i pendiente) s = some s') :
    ∃ pid pc g x, (s.nucleos i).rafaga = some (pid, pc) ∧
      giro (maquina (cpus i) pid) pendiente (s.cpu i) pc = some (g, x) ∧
      s' = { s.conCpu i x (g.sigue.map fun pc' => (pid, pc')) with
        vidas := Function.update s.vidas pid ((s.vidas pid).con g) } := by
  rw [paso] at h
  split at h
  · cases h
  · next pid pc hraf =>
      obtain ⟨⟨g, x⟩, hg, rfl⟩ := Option.map_eq_some_iff.mp h
      exact ⟨pid, pc, g, x, hraf, hg, rfl⟩

end Inversion

section Vistas

variable {s : Equipo cfg ι} {i j : ι} {x : EstadoCpu cfg} {r : Option (ℤ × ℤ)}

@[simp] theorem memoria_conCpu : (s.conCpu i x r).memoria = x.memoria := rfl

theorem nucleo_propio : (s.conCpu i x r).nucleos i = ⟨x.tlb, x.cache, r⟩ :=
  Function.update_self ..

@[simp] theorem cpu_conCpu : (s.conCpu i x r).cpu i = x := by
  rw [Equipo.cpu, nucleo_propio]
  rfl

theorem nucleo_conCpu (h : j ≠ i) : (s.conCpu i x r).nucleos j = s.nucleos j :=
  Function.update_of_ne h _ _

theorem corre_conCpu {pid : ℤ} : Corre (s.conCpu i x r) i pid ↔ r.map Prod.fst = some pid := by
  rw [Corre, nucleo_propio]

theorem corre_otro {pid : ℤ} (h : j ≠ i) : Corre (s.conCpu i x r) j pid ↔ Corre s j pid := by
  rw [Corre, Corre, nucleo_conCpu h]

end Vistas

end SistemaCpus

import Tpssoo.CpuEstado

/-!
# TLB

Lookup, insertion and the two replacement algorithms, with the clock readings they make.
-/
namespace CpuTlb

open CpuEstado

variable (cpu : Cpu) (t : Tlb)

/-- Index of the entry that holds a page of a process. -/
def indiceTlb (entradas : List EntradaTlb) (pid pagina : ℤ) : Option ℕ :=
  entradas.findIdx? fun e => e.ocupada && e.pid == pid && e.pagina == pagina

/-- `tlb[i].timestamp = get_timestamp()`. -/
def marcarTimestamp (i : ℕ) : Tlb :=
  { t with
    entradas := t.entradas.modify i fun e => { e with timestamp := cpu.getTimestamp t.horas }
    horas := t.horas + 1 }

def buscarEnTlb (pid pagina : ℤ) : Option ℕ × Tlb :=
  match indiceTlb t.entradas pid pagina with
  | none => (none, t)
  | some i => if cpu.algoritmoTlb = .lru then (some i, marcarTimestamp cpu t i) else (some i, t)

def ponerEnTlb (i : ℕ) (pid pagina marco : ℤ) : Tlb :=
  { t with
    entradas := t.entradas.set i ⟨true, pid, pagina, marco, cpu.getTimestamp t.horas⟩
    horas := t.horas + 1 }

def ULLONG_MAX : UInt64 := 0xFFFFFFFFFFFFFFFF

/-- The first entry with the least timestamp, among those below `ULLONG_MAX`. -/
def victimaLru (entradas : List EntradaTlb) : Option ℕ :=
  (entradas.zipIdx.foldl (fun (min, indiceVictima) (e, i) =>
    if e.timestamp < min then (e.timestamp, some i) else (min, indiceVictima)) (ULLONG_MAX, none)).2

def reemplazarEnTlb (pid pagina marco : ℤ) : Tlb :=
  match cpu.algoritmoTlb with
  | .lru =>
    match victimaLru t.entradas with
    | some i => ponerEnTlb cpu t i pid pagina marco
    | none => t
  | .fifo =>
    { ponerEnTlb cpu t t.punteroFifo pid pagina marco with
      punteroFifo := (t.punteroFifo + 1) % t.entradas.length }
  | .otro => t

def agregarATlb (pid pagina marco : ℤ) : Tlb :=
  if t.entradas = [] then t
  else
    match t.entradas.findIdx? fun e => !e.ocupada with
    | some i => ponerEnTlb cpu t i pid pagina marco
    | none => reemplazarEnTlb cpu t pid pagina marco

def limpiarTlb : Tlb :=
  if t.entradas = [] then t
  else
    { t with
      entradas := t.entradas.map fun _ => ⟨false, -1, -1, -1, 0⟩
      punteroFifo := 0 }

section Reglas

variable {cpu t} {pid pagina marco : ℤ} {i : ℕ} {e : EntradaTlb}

/-- Entry `i` maps page `pagina` of process `pid` to `marco`. -/
def Mapea (t : Tlb) (i : ℕ) (pid pagina marco : ℤ) : Prop :=
  ∃ ts, t.entradas[i]? = some ⟨true, pid, pagina, marco, ts⟩

/-- Every mapping of the TLB satisfies a relation. -/
def TodoTlb (P : ℤ → ℤ → ℤ → Prop) (t : Tlb) : Prop :=
  ∀ i pid pagina marco, Mapea t i pid pagina marco → P pid pagina marco

theorem mapea_marcar {j : ℕ} :
    Mapea (marcarTimestamp cpu t j) i pid pagina marco ↔ Mapea t i pid pagina marco := by
  unfold Mapea marcarTimestamp
  simp only [List.getElem?_modify]
  cases t.entradas[i]? with
  | none => simp
  | some e =>
    by_cases hij : j = i
    · obtain ⟨oc, p, pg, m, ts⟩ := e
      simp [hij]
    · simp [hij]

theorem mapea_de_indice (h : indiceTlb t.entradas pid pagina = some i) :
    ∃ marco, Mapea t i pid pagina marco := by
  obtain ⟨hlt, hp, -⟩ := List.findIdx?_eq_some_iff_getElem.mp h
  simp only [Bool.and_eq_true, beq_iff_eq] at hp
  obtain ⟨⟨hoc, hpid⟩, hpag⟩ := hp
  refine ⟨t.entradas[i].marco, t.entradas[i].timestamp, ?_⟩
  rw [List.getElem?_eq_getElem hlt, ← hoc, ← hpid, ← hpag]

/-- A lookup misses, or hits an entry that maps the page. -/
theorem buscarEnTlb_cases (cpu : Cpu) (t : Tlb) (pid pagina : ℤ) :
    (indiceTlb t.entradas pid pagina = none ∧ buscarEnTlb cpu t pid pagina = (none, t)) ∨
    ∃ i t' marco, indiceTlb t.entradas pid pagina = some i ∧
      buscarEnTlb cpu t pid pagina = (some i, t') ∧ Mapea t i pid pagina marco ∧
      (t' = t ∨ t' = marcarTimestamp cpu t i) := by
  rw [buscarEnTlb]
  cases hi : indiceTlb t.entradas pid pagina with
  | none => exact Or.inl ⟨rfl, rfl⟩
  | some i =>
    obtain ⟨marco, hmapea⟩ := mapea_de_indice hi
    right
    dsimp only
    split
    · exact ⟨i, _, marco, rfl, rfl, hmapea, Or.inr rfl⟩
    · exact ⟨i, _, marco, rfl, rfl, hmapea, Or.inl rfl⟩

theorem todoTlb_marcar {P : ℤ → ℤ → ℤ → Prop} (h : TodoTlb P t) :
    TodoTlb P (marcarTimestamp cpu t i) := by
  intro j pid pagina marco hj
  exact h j pid pagina marco (mapea_marcar.mp hj)

theorem todoTlb_poner {P : ℤ → ℤ → ℤ → Prop} (h : TodoTlb P t) (hP : P pid pagina marco) :
    TodoTlb P (ponerEnTlb cpu t i pid pagina marco) := by
  rintro j pid' pagina' marco' ⟨ts, hj⟩
  simp only [ponerEnTlb, List.getElem?_set] at hj
  split at hj
  · split at hj
    · cases hj
      exact hP
    · cases hj
  · exact h j pid' pagina' marco' ⟨ts, hj⟩

theorem todoTlb_agregar {P : ℤ → ℤ → ℤ → Prop} (h : TodoTlb P t) (hP : P pid pagina marco) :
    TodoTlb P (agregarATlb cpu t pid pagina marco) := by
  unfold agregarATlb reemplazarEnTlb
  split
  · exact h
  · split
    · exact todoTlb_poner h hP
    · split
      · split
        · exact todoTlb_poner h hP
        · exact h
      · exact todoTlb_poner h hP
      · exact h

theorem not_mapea_limpiar : ¬ Mapea (limpiarTlb t) i pid pagina marco := by
  rintro ⟨ts, h⟩
  unfold limpiarTlb at h
  split at h
  · rename_i hvacia
    simp [hvacia] at h
  · simp only [List.getElem?_map, Option.map_eq_some_iff] at h
    obtain ⟨e, -, he⟩ := h
    cases he

end Reglas

end CpuTlb

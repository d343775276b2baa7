import Tpssoo.CpuTlb
import Tpssoo.Entrelazado
import Tpssoo.ListaCircular
import Mathlib.Data.List.DropRight

/-!
# Runs of the TLB

Any sequence of lookups, insertions and cleanings on a TLB that starts empty. Both callers
insert a page only when a lookup of it has just missed.
-/
namespace CpuTlbCorridas

open CpuEstado CpuTlb Tartamudeo

inductive OpTlb where
  | buscar (pid pagina : ℤ)
  | agregar (pid pagina marco : ℤ)
  | limpiar
  deriving DecidableEq, Repr

structure Mapeo where
  pid : ℤ
  pagina : ℤ
  marco : ℤ
  deriving DecidableEq, Repr

def Mapeo.clave (m : Mapeo) : ℤ × ℤ := (m.pid, m.pagina)

/-- `inicializar_tlb`. -/
def iniciarTlb (totalEntradas : ℕ) : Tlb :=
  ⟨List.replicate totalEntradas ⟨false, -1, -1, -1, 0⟩, 0, 0⟩

def pasoTlb (cpu : Cpu) : OpTlb → Tlb → Option Tlb
  | .buscar pid pagina, t => some (buscarEnTlb cpu t pid pagina).2
  | .agregar pid pagina marco, t =>
    if indiceTlb t.entradas pid pagina =
      none then some (agregarATlb cpu t pid pagina marco) else none
  | .limpiar, t => some (limpiarTlb t)

/-- What an occupied entry maps. -/
def mapeo (e : EntradaTlb) : Option Mapeo :=
  if e.ocupada then some ⟨e.pid, e.pagina, e.marco⟩ else none

def mapeos (t : Tlb) : List Mapeo := t.entradas.filterMap mapeo

section Entradas

variable {cpu : Cpu} {t t' : Tlb} {op : OpTlb} {pid pagina marco : ℤ} {i : ℕ}

/-- What a step does: a lookup hits, or misses, or a page that is not there is added, or the
TLB is emptied. -/
theorem paso_casos (h : pasoTlb cpu op t = some t') :
    (∃ pid pagina i, op = .buscar pid pagina ∧ indiceTlb t.entradas pid pagina = some i ∧
      (t' = t ∧ cpu.algoritmoTlb ≠ .lru ∨ t' = marcarTimestamp cpu t i ∧ cpu.algoritmoTlb = .lru)) ∨
    (∃ pid pagina, op = .buscar pid pagina ∧ indiceTlb t.entradas pid pagina = none ∧ t' = t) ∨
    (∃ pid pagina marco, op = .agregar pid pagina marco ∧ indiceTlb t.entradas pid pagina = none ∧
      t' = agregarATlb cpu t pid pagina marco) ∨
    op = .limpiar ∧ t' = limpiarTlb t := by
  cases op with
  | buscar pid pagina =>
    cases h
    rw [buscarEnTlb]
    cases hi : indiceTlb t.entradas pid pagina with
    | none => exact Or.inr (Or.inl ⟨pid, pagina, rfl, hi, rfl⟩)
    | some i =>
      left
      refine ⟨pid, pagina, i, rfl, hi, ?_⟩
      dsimp only
      split
      · next halg => exact Or.inr ⟨rfl, halg⟩
      · next halg => exact Or.inl ⟨rfl, halg⟩
  | agregar pid pagina marco =>
    rw [pasoTlb] at h
    split at h
    · next hfalta =>
        cases h
        exact Or.inr (Or.inr (Or.inl ⟨pid, pagina, marco, rfl, hfalta, rfl⟩))
    · cases h
  | limpiar =>
    cases h
    exact Or.inr (Or.inr (Or.inr ⟨rfl, rfl⟩))

theorem mapeos_eq (t : Tlb) : mapeos t = (t.entradas.map mapeo).filterMap id := by
  rw [mapeos, List.filterMap_map]
  rfl

theorem mem_mapeos {m : Mapeo} : m ∈ mapeos t ↔ ∃ i, Mapea t i m.pid m.pagina m.marco := by
  rw [mapeos, List.mem_filterMap]
  constructor
  · rintro ⟨e, he, hm⟩
    obtain ⟨i, hi⟩ := List.mem_iff_getElem?.mp he
    obtain ⟨oc, p, pg, mc, ts⟩ := e
    rw [mapeo] at hm
    split at hm
    · next hoc =>
        cases hm
        dsimp only at hoc
        subst hoc
        exact ⟨i, ts, hi⟩
    · cases hm
  · rintro ⟨i, ts, hi⟩
    exact ⟨_, List.mem_of_getElem? hi, rfl⟩

/-- A lookup misses when no occupied entry has the page. -/
theorem indice_none_iff : indiceTlb t.entradas pid pagina = none ↔
    ∀ m ∈ mapeos t, m.clave ≠ (pid, pagina) := by
  rw [indiceTlb, List.findIdx?_eq_none_iff]
  constructor
  · intro h m hm heq
    obtain ⟨i, ts, hi⟩ := mem_mapeos.mp hm
    have hno := h _ (List.mem_of_getElem? hi)
    cases heq
    simp at hno
  · intro h e he
    by_contra hsi
    obtain ⟨hoc, hpid, hpag⟩ : e.ocupada = true ∧ e.pid = pid ∧ e.pagina = pagina := by
      simpa using hsi
    refine h ⟨e.pid, e.pagina, e.marco⟩ (List.mem_filterMap.mpr ⟨e, he, if_pos hoc⟩) ?_
    rw [Mapeo.clave, hpid, hpag]

theorem length_limpiar : (limpiarTlb t).entradas.length = t.entradas.length := by
  rw [limpiarTlb]
  split
  · rfl
  · exact List.length_map _

theorem length_agregar : (agregarATlb cpu t pid pagina marco).entradas.length =
    t.entradas.length := by
  rw [agregarATlb, reemplazarEnTlb]
  repeat' split
  all_goals first | rfl | exact List.length_set

end Entradas

end CpuTlbCorridas

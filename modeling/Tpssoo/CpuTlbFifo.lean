import Tpssoo.CpuTlbCorridas

/-!
# The TLB with FIFO

Free entries are filled in order and then replaced in order, so the entries read from
`puntero_tlb_fifo` are the last mappings added, the oldest first.
-/
namespace CpuTlbFifo

open CpuEstado CpuTlb CpuTlbCorridas Entrelazado Tartamudeo ListaCircular

/-- The mappings added since the last cleaning, oldest first. -/
def agregados (ops : List OpTlb) : List Mapeo :=
  ops.foldl (fun xs op => match op with
    | .buscar _ _ => xs
    | .agregar pid pagina marco => xs ++ [⟨pid, pagina, marco⟩]
    | .limpiar => []) []

/-- The TLB is a queue of the mappings `xs`, oldest first, with room for `n`. -/
structure EsCola (cpu : Cpu) (n : ℕ) (t : Tlb) (xs : List Mapeo) : Prop where
  ocupadas : (mapeos t).Perm xs
  unicas : (xs.map Mapeo.clave).Nodup
  acierto : ∀ pid pagina, (buscarEnTlb cpu t pid pagina).1.isSome ↔
      (pid, pagina) ∈ xs.map Mapeo.clave
  marco : ∀ pid pagina i, (buscarEnTlb cpu t pid pagina).1 = some i →
    ∃ marco, Mapea t i pid pagina marco ∧ ⟨pid, pagina, marco⟩ ∈ xs
  desalojo : ∀ pid pagina marco, indiceTlb t.entradas pid pagina = none → xs.length = n →
    (mapeos (agregarATlb cpu t pid pagina marco)).Perm (xs.tail ++ [⟨pid, pagina, marco⟩])

section Ventana

variable {α : Type*} {n : ℕ} {xs : List α} {x : α}

theorem rtake_todo (h : xs.length ≤ n) : xs.rtake n = xs := by
  rw [List.rtake, Nat.sub_eq_zero_of_le h, List.drop_zero]

/-- The last `n` elements when there is one more. -/
theorem rtake_concat (hn : 1 ≤ n) (h : n ≤ xs.length) :
    (xs ++ [x]).rtake n = (xs.rtake n).tail ++ [x] := by
  obtain ⟨k, rfl⟩ : ∃ k, n = k + 1 := ⟨n - 1, by omega⟩
  have hcola : xs.rtake k = (xs.rtake (k + 1)).tail := by
    rw [List.rtake, List.rtake, List.tail_drop]
    congr 1
    omega
  rw [List.rtake_concat_succ, hcola]

end Ventana

section Invariante

variable {cpu : Cpu} {n : ℕ} {t t' : Tlb} {xs : List Mapeo} {m : Mapeo}

structure Cola (n : ℕ) (t : Tlb) (xs : List Mapeo) : Prop where
  largo : t.entradas.length = n
  puntero : t.punteroFifo < n
  quieto : xs.length ≤ n → t.punteroFifo = 0
  vista : (t.entradas.map mapeo).rotate t.punteroFifo =
    (xs.rtake n).map some ++ List.replicate (n - xs.length) none
  unicas : ((xs.rtake n).map Mapeo.clave).Nodup

theorem Cola.perm (h : Cola n t xs) : (mapeos t).Perm (xs.rtake n) := by
  have hrot : (mapeos t).Perm (((t.entradas.map mapeo).rotate t.punteroFifo).filterMap id) := by
    rw [mapeos_eq]
    exact (List.rotate_perm _ _).symm.filterMap _
  have hlibres : (List.replicate (n - xs.length) (none : Option Mapeo)).filterMap id = [] := by
    simp
  have hid : ((xs.rtake n).map some).filterMap id = xs.rtake n := by
    rw [List.filterMap_map]
    exact List.filterMap_some
  rwa [h.vista, List.filterMap_append, hlibres, hid, List.append_nil] at hrot

theorem findIdx_libre (t : Tlb) : t.entradas.findIdx? (fun e => !e.ocupada) =
    (t.entradas.map mapeo).findIdx? Option.isNone := by
  rw [List.findIdx?_map]
  congr 1
  funext e
  cases h : e.ocupada <;> simp [mapeo, h]

/-- While it is not full, the first free entry is the one after the last filled. -/
theorem Cola.libre (h : Cola n t xs) (hlt : xs.length < n) :
    t.entradas.findIdx? (fun e => !e.ocupada) = some xs.length := by
  have hvista := h.vista
  rw [h.quieto hlt.le, List.rotate_zero, rtake_todo hlt.le] at hvista
  rw [findIdx_libre, hvista, List.findIdx?_append]
  have hnada : (xs.map some).findIdx? Option.isNone = none := by
    rw [List.findIdx?_eq_none_iff]
    intro o ho
    obtain ⟨x, -, rfl⟩ := List.mem_map.mp ho
    rfl
  obtain ⟨k, hk⟩ : ∃ k, n - xs.length = k + 1 := ⟨n - xs.length - 1, by omega⟩
  rw [hnada, hk, List.replicate_succ, List.findIdx?_cons]
  simp

theorem Cola.llena (h : Cola n t xs) (hle : n ≤ xs.length) :
    t.entradas.findIdx? (fun e => !e.ocupada) = none := by
  rw [findIdx_libre, List.findIdx?_eq_none_iff]
  intro o ho
  have hmem : o ∈ (t.entradas.map mapeo).rotate t.punteroFifo := List.mem_rotate.mpr ho
  rw [h.vista, Nat.sub_eq_zero_of_le hle, List.replicate_zero, List.append_nil] at hmem
  obtain ⟨x, -, rfl⟩ := List.mem_map.mp hmem
  rfl

theorem unicas_concat (h : Cola n t xs) (hn : 1 ≤ n) (hfalta : ∀ x ∈ mapeos t, x.clave ≠ m.clave) :
    (((xs ++ [m]).rtake n).map Mapeo.clave).Nodup := by
  have hno : m.clave ∉ (xs.rtake n).map Mapeo.clave := by
    intro hmem
    obtain ⟨x, hx, heq⟩ := List.mem_map.mp hmem
    exact hfalta x (h.perm.mem_iff.mpr hx) heq
  have htodo : ((xs.rtake n ++ [m]).map Mapeo.clave).Nodup := by
    rw [List.map_append]
    exact List.nodup_append'.mpr ⟨h.unicas, List.nodup_singleton _, by simpa using hno⟩
  refine List.Nodup.sublist (List.Sublist.map _ ?_) htodo
  rcases Nat.lt_or_ge xs.length n with hlt | hge
  · have hle : (xs ++ [m]).length ≤ n := by
      rw [List.length_append]
      exact hlt
    rw [rtake_todo hle, rtake_todo hlt.le]
  · rw [rtake_concat hn hge]
    exact (List.tail_sublist _).append (List.Sublist.refl _)

theorem cola_agregar (h : Cola n t xs) (hn : 1 ≤ n) (halg : cpu.algoritmoTlb = .fifo)
    (hfalta : indiceTlb t.entradas m.pid m.pagina = none) :
    Cola n (agregarATlb cpu t m.pid m.pagina m.marco) (xs ++ [m]) := by
  have hunicas := unicas_concat h hn (m := m) (indice_none_iff.mp hfalta)
  have hlargo : (agregarATlb cpu t m.pid m.pagina m.marco).entradas.length = t.entradas.length :=
    length_agregar
  have hne : t.entradas ≠ [] := by
    intro hnil
    have hcero := h.largo
    rw [hnil] at hcero
    exact absurd hcero.symm (Nat.ne_of_gt hn)
  rw [h.largo] at hlargo
  rcases Nat.lt_or_ge xs.length n with hlt | hge
  · -- a free entry is filled
    have hefecto : agregarATlb cpu t m.pid m.pagina m.marco =
        ponerEnTlb cpu t xs.length m.pid m.pagina m.marco := by
      rw [agregarATlb, if_neg hne, h.libre hlt]
    have hlen : (xs ++ [m]).length = xs.length + 1 := List.length_append
    refine ⟨hlargo, ?_, ?_, ?_, hunicas⟩
    · rw [hefecto]
      exact h.puntero
    · intro _
      rw [hefecto]
      exact h.quieto hlt.le
    · have hvista := h.vista
      have hcero := h.quieto hlt.le
      rw [hcero, List.rotate_zero, rtake_todo hlt.le] at hvista
      obtain ⟨k, hk⟩ : ∃ k, n - xs.length = k + 1 := ⟨n - xs.length - 1, by omega⟩
      have hk' : n - (xs ++ [m]).length = k := by omega
      rw [hefecto, ponerEnTlb]
      dsimp only
      rw [hcero, List.rotate_zero, List.map_set, hvista, hk, List.replicate_succ, hk',
        rtake_todo (by omega)]
      have hset : (xs.map some ++ none :: List.replicate k none).set xs.length (some m) =
          xs.map some ++ some m :: List.replicate k none := by
        rw [List.set_append_right _ _ (by simp)]
        simp
      refine hset.trans ?_
      simp
  · -- the entry under the pointer is replaced
    have hefecto : agregarATlb cpu t m.pid m.pagina m.marco =
        { ponerEnTlb cpu t t.punteroFifo m.pid m.pagina m.marco with
          punteroFifo := (t.punteroFifo + 1) % t.entradas.length } := by
      rw [agregarATlb, if_neg hne, h.llena hge, reemplazarEnTlb, halg]
    have hlen : (xs ++ [m]).length = xs.length + 1 := List.length_append
    refine ⟨hlargo, ?_, ?_, ?_, hunicas⟩
    · rw [hefecto]
      dsimp only
      rw [h.largo]
      exact Nat.mod_lt _ hn
    · intro hle
      omega
    · have hvista := h.vista
      rw [Nat.sub_eq_zero_of_le hge, List.replicate_zero, List.append_nil] at hvista
      have hp : t.punteroFifo < (t.entradas.map mapeo).length := by
        rw [List.length_map, h.largo]
        exact h.puntero
      have hcero : n - (xs ++ [m]).length = 0 := by omega
      rw [hefecto, ponerEnTlb]
      dsimp only
      have hrot := rotate_set_siguiente hp (x := some m)
      rw [List.length_map] at hrot
      rw [List.map_set, hcero, List.replicate_zero, List.append_nil]
      refine hrot.trans ?_
      rw [hvista, rtake_concat hn hge, List.map_append, List.map_tail]
      rfl

/-- A queue of nothing. -/
theorem cola_vacia (hn : 1 ≤ n) (hlargo : t.entradas.length = n) (hcero : t.punteroFifo = 0)
    (hlibres : t.entradas.map mapeo = List.replicate n none) : Cola n t [] := by
  constructor
  · exact hlargo
  · rw [hcero]
    exact hn
  · intro _
    exact hcero
  · rw [hcero, List.rotate_zero, hlibres]
    simp
  · simp

theorem cola_iniciar (hn : 1 ≤ n) : Cola n (iniciarTlb n) [] :=
  cola_vacia hn List.length_replicate rfl List.map_replicate

theorem cola_limpiar (h : Cola n t xs) : Cola n (limpiarTlb t) [] := by
  have hpos := Nat.zero_lt_of_lt h.puntero
  have hne : t.entradas ≠ [] := by
    intro hnil
    have hcero := h.largo
    rw [hnil] at hcero
    exact absurd hcero.symm (Nat.ne_of_gt hpos)
  apply cola_vacia hpos (length_limpiar.trans h.largo)
  · rw [limpiarTlb, if_neg hne]
  · rw [limpiarTlb, if_neg hne]
    dsimp only
    rw [List.map_map, ← h.largo]
    exact List.map_const'

theorem Cola.esCola (h : Cola n t xs) (hn : 1 ≤ n) (halg : cpu.algoritmoTlb = .fifo) :
    EsCola cpu n t (xs.rtake n) := by
  have hacierto : ∀ pid pagina, (buscarEnTlb cpu t pid pagina).1 =
      indiceTlb t.entradas pid pagina := by
    intro pid pagina
    rw [buscarEnTlb]
    cases indiceTlb t.entradas pid pagina with
    | none => rfl
    | some i =>
      dsimp only
      split <;> rfl
  refine ⟨h.perm, h.unicas, ?_, ?_, ?_⟩
  · intro pid pagina
    rw [hacierto, ← not_iff_not, Option.not_isSome_iff_eq_none, indice_none_iff, List.mem_map]
    constructor
    · rintro hno ⟨m, hm, heq⟩
      exact hno m (h.perm.mem_iff.mpr hm) heq
    · intro hno m hm heq
      exact hno ⟨m, h.perm.mem_iff.mp hm, heq⟩
  · intro pid pagina i hi
    rw [hacierto] at hi
    obtain ⟨marco, hmapea⟩ := mapea_de_indice hi
    exact ⟨marco, hmapea, h.perm.mem_iff.mp (mem_mapeos.mpr ⟨i, hmapea⟩)⟩
  · intro pid pagina marco hfalta hllena
    have hge : n ≤ xs.length := by
      by_contra hlt
      have hcorta : xs.rtake n = xs := rtake_todo (by omega)
      rw [hcorta] at hllena
      omega
    have hcola := cola_agregar (m := ⟨pid, pagina, marco⟩) h hn halg hfalta
    rw [← rtake_concat hn hge]
    exact hcola.perm

end Invariante

theorem cola_paso {cpu : Cpu} {n : ℕ} (hn : 1 ≤ n) (halg : cpu.algoritmoTlb = .fifo) {op : OpTlb}
    {t t' : Tlb} {ops : List OpTlb} (h : Cola n t (agregados ops))
    (hp : pasoTlb cpu op t = some t') :
    Cola n t' (agregados (ops ++ [op])) := by
  rw [agregados, List.foldl_append, List.foldl_cons, List.foldl_nil]
  rcases paso_casos hp with ⟨pid, pagina, i, rfl, -, ⟨rfl, -⟩ | ⟨-, hlru⟩⟩ | ⟨pid, pagina,
      rfl, -, rfl⟩ |
    ⟨pid, pagina, marco, rfl, hfalta, rfl⟩ | ⟨rfl, rfl⟩
  · exact h
  · rw [halg] at hlru
    cases hlru
  · exact h
  · exact cola_agregar (m := ⟨pid, pagina, marco⟩) h hn halg hfalta
  · exact cola_limpiar h

/-- The TLB with FIFO holds the last mappings added since it was cleaned, as many as it has
entries, and replaces the oldest. -/
theorem tlb_fifo_es_cola (cpu : Cpu) (halg : cpu.algoritmoTlb = .fifo) (n : ℕ) (hn : 1 ≤ n)
    (ops : List OpTlb) (t : Tlb) (hrun : correr (pasoTlb cpu) ops (iniciarTlb n) = some t) :
    EsCola cpu n t ((agregados ops).rtake n) := by
  have hcola : Cola n t (agregados ops) :=
    invariante_historia (I := fun ops t => Cola n t (agregados ops)) (cola_iniciar hn)
      (fun _ _ _ _ _ hI hp => cola_paso hn halg hI hp) hrun
  exact hcola.esCola hn halg

def trasLimpiar : List OpTlb :=
  [.agregar 1 3 4, .limpiar, .agregar 1 0 5, .agregar 1 1 6, .buscar 1 0, .agregar 1 2 7]

theorem tlb_fifo_ejemplo : ∃ t, correr (pasoTlb cpuEjemplo) trasLimpiar (iniciarTlb 2) = some t ∧
    EsCola cpuEjemplo 2 t [⟨1, 1, 6⟩, ⟨1, 2, 7⟩] :=
  ⟨_, rfl, tlb_fifo_es_cola cpuEjemplo rfl 2 (by decide) trasLimpiar _ rfl⟩

end CpuTlbFifo

import Tpssoo.CpuTlbCorridas
import Mathlib.Data.Finset.Max

/-!
# The TLB with LRU

`reemplazar_en_tlb` takes the first entry with the least timestamp. Timestamps are readings
of a clock of milliseconds that never goes back, so the entry is the least recently used one
but for readings in the same millisecond.
-/
namespace CpuTlbLru

open CpuEstado CpuTlb CpuTlbCorridas Entrelazado Tartamudeo

/-- The page that an operation uses; a lookup of a page that is in the TLB is a hit. -/
def usa : OpTlb → Option (ℤ × ℤ)
  | .buscar pid pagina | .agregar pid pagina _ => some (pid, pagina)
  | .limpiar => none

/-- How many operations have come after the last use of a page. -/
def haceCuanto (ops : List OpTlb) (clave : ℤ × ℤ) : ℕ :=
  (ops.reverse.map usa).idxOf (some clave)

def claveDe (e : EntradaTlb) : ℤ × ℤ := (e.pid, e.pagina)

/-- The last use of an entry comes before those of all the others. -/
def MenosReciente (ops : List OpTlb) (t : Tlb) (i : ℕ) : Prop :=
  ∃ e, t.entradas[i]? = some e ∧ ∀ j e', t.entradas[j]? = some e' → j ≠ i →
    haceCuanto ops (claveDe e') < haceCuanto ops (claveDe e)

/-- No entry before this one has its timestamp. -/
def Distinguible (t : Tlb) (i : ℕ) : Prop :=
  ∃ e, t.entradas[i]? = some e ∧ e.timestamp < ULLONG_MAX ∧
    ∀ j e', t.entradas[j]? = some e' → j < i → e'.timestamp ≠ e.timestamp

section Victima

variable {i : ℕ} {e : EntradaTlb}

/-- The loop keeps the first entry with the least timestamp so far. -/
theorem victima_casos (es : List EntradaTlb) (k : ℕ) (min : UInt64) (o : Option ℕ) :
    ∃ r, (es.zipIdx k).foldl (fun (min, indiceVictima) (e, i) =>
      if e.timestamp < min then (e.timestamp, some i) else (min, indiceVictima)) (min, o) = r ∧
    (r = (min, o) ∧ (∀ e ∈ es, min ≤ e.timestamp) ∨
      ∃ i e, es[i]? = some e ∧ r = (e.timestamp, some (k + i)) ∧ e.timestamp < min ∧
        (∀ e' ∈ es, e.timestamp ≤ e'.timestamp) ∧
        ∀ j e', es[j]? = some e' → j < i → e.timestamp < e'.timestamp) := by
  refine ⟨_, rfl, ?_⟩
  induction es generalizing k min o with
  | nil => exact Or.inl ⟨rfl, by simp⟩
  | cons x es ih =>
    rw [List.zipIdx_cons, List.foldl_cons]
    dsimp only
    by_cases hx : x.timestamp < min
    · rw [if_pos hx]
      rcases ih (k + 1) x.timestamp (some k) with ⟨hr, hmin⟩ |
        ⟨i, e, hi, hr, hlt, hmin, hantes⟩
      · right
        refine ⟨0, x, rfl, hr, hx, ?_, fun j e' _ hj => absurd hj (Nat.not_lt_zero j)⟩
        intro e' he'
        rcases List.mem_cons.mp he' with rfl | he'
        · exact UInt64.le_rfl
        · exact hmin e' he'
      · right
        refine ⟨i + 1, e, hi, ?_, UInt64.lt_trans hlt hx, ?_, ?_⟩
        · rw [hr, Nat.add_assoc, Nat.add_comm 1 i]
        · intro e' he'
          rcases List.mem_cons.mp he' with rfl | he'
          · exact UInt64.le_of_lt hlt
          · exact hmin e' he'
        · intro j e' hj hlt'
          cases j with
          | zero =>
            cases hj
            exact hlt
          | succ j => exact hantes j e' hj (Nat.lt_of_succ_lt_succ hlt')
    · rw [if_neg hx]
      have hx : min ≤ x.timestamp := UInt64.not_lt.mp hx
      rcases ih (k + 1) min o with ⟨hr, hmin⟩ | ⟨i, e, hi, hr, hlt, hmin, hantes⟩
      · left
        refine ⟨hr, fun e' he' => ?_⟩
        rcases List.mem_cons.mp he' with rfl | he'
        · exact hx
        · exact hmin e' he'
      · right
        refine ⟨i + 1, e, hi, ?_, hlt, ?_, ?_⟩
        · rw [hr, Nat.add_assoc, Nat.add_comm 1 i]
        · intro e' he'
          rcases List.mem_cons.mp he' with rfl | he'
          · exact UInt64.le_of_lt (UInt64.lt_of_lt_of_le hlt hx)
          · exact hmin e' he'
        · intro j e' hj hlt'
          cases j with
          | zero =>
            cases hj
            exact UInt64.lt_of_lt_of_le hlt hx
          | succ j => exact hantes j e' hj (Nat.lt_of_succ_lt_succ hlt')

/-- An entry with the least timestamp is the victim when it is the first such. -/
theorem victimaLru_iff {t : Tlb} (hi : t.entradas[i]? = some e)
    (hmin : ∀ e' ∈ t.entradas, e.timestamp ≤ e'.timestamp) :
    victimaLru t.entradas = some i ↔ Distinguible t i := by
  obtain ⟨r, hr, hcasos⟩ := victima_casos t.entradas 0 ULLONG_MAX none
  have hvictima : victimaLru t.entradas = r.2 := congrArg Prod.snd hr
  rw [hvictima]
  rcases hcasos with ⟨rfl, htodas⟩ | ⟨v, x, hv, rfl, hlt, hminv, hantes⟩
  · constructor
    · intro h
      cases h
    · rintro ⟨e', he', hlt, -⟩
      exact absurd hlt (UInt64.not_lt.mpr (htodas e' (List.mem_of_getElem? he')))
  · dsimp only
    rw [Nat.zero_add, Option.some_inj]
    constructor
    · rintro rfl
      cases hi.symm.trans hv
      exact ⟨e, hi, hlt, fun j e' hj hji => (UInt64.ne_of_lt (hantes j e' hj hji)).symm⟩
    · rintro ⟨e', he', -, hprimera⟩
      cases hi.symm.trans he'
      have hxe : x.timestamp = e.timestamp :=
        UInt64.le_antisymm (hminv e (List.mem_of_getElem? hi)) (hmin x (List.mem_of_getElem? hv))
      rcases Nat.lt_trichotomy v i with h | h | h
      · exact absurd hxe (hprimera v x hv h)
      · exact h
      · exact absurd (hantes i e hi h) (UInt64.not_lt.mpr (UInt64.le_of_eq hxe.symm))

end Victima

section Recencias

variable {cpu : Cpu} {n : ℕ} {t t' : Tlb} {ops : List OpTlb} {op : OpTlb} {clave : ℤ × ℤ}

theorem haceCuanto_concat : haceCuanto (ops ++ [op]) clave =
    if usa op = some clave then 0 else haceCuanto ops clave + 1 := by
  rw [haceCuanto, List.reverse_append, List.reverse_singleton, List.singleton_append, List.map_cons,
    List.idxOf_cons]
  by_cases h : usa op = some clave
  · rw [if_pos h, h, beq_self_eq_true]
    rfl
  · rw [if_neg h, beq_eq_false_iff_ne.mpr h, haceCuanto, List.map_reverse]
    rfl

/-- Every entry has the reading of its last use, and the readings come in the order of the
uses. -/
structure Recencia (cpu : Cpu) (t : Tlb) (ops : List OpTlb) (hora : ℕ → ℕ) : Prop where
  lectura : ∀ i e, t.entradas[i]? = some e → e.ocupada = true →
    e.timestamp = cpu.getTimestamp (hora i) ∧ hora i < t.horas
  orden : ∀ i j e e', t.entradas[i]? = some e → t.entradas[j]? = some e' → e.ocupada = true →
    e'.ocupada = true → i ≠ j →
      hora i < hora j ∧ haceCuanto ops (claveDe e') < haceCuanto ops (claveDe e) ∨
      hora j < hora i ∧ haceCuanto ops (claveDe e) < haceCuanto ops (claveDe e')

variable {hora : ℕ → ℕ}

/-- An operation that uses no page of the TLB. -/
theorem Recencia.ajena (h : Recencia cpu t ops hora)
    (hno : ∀ e ∈ t.entradas, e.ocupada = true → usa op ≠ some (claveDe e)) :
    Recencia cpu t (ops ++ [op]) hora := by
  constructor
  · exact h.lectura
  · intro i j e e' hi hj he he' hne
    rw [haceCuanto_concat, haceCuanto_concat, if_neg (hno e (List.mem_of_getElem? hi) he),
      if_neg (hno e' (List.mem_of_getElem? hj) he')]
    have horden := h.orden i j e e' hi hj he he' hne
    omega

/-- An operation that uses the page of an entry, which takes the next reading. -/
theorem Recencia.uso (h : Recencia cpu t ops hora) {i : ℕ} {x : EntradaTlb}
    (hentradas : t'.entradas = t.entradas.set i x) (hhoras : t'.horas = t.horas + 1)
    (hts : x.timestamp = cpu.getTimestamp t.horas) (husa : usa op = some (claveDe x))
    (hotras : ∀ j e, t.entradas[j]? = some e → e.ocupada = true → j ≠ i → claveDe e ≠ claveDe x) :
    Recencia cpu t' (ops ++ [op]) (Function.update hora i t.horas) := by
  have hget : ∀ j e, t'.entradas[j]? = some e → j = i ∧ e = x ∨ j ≠ i ∧
      t.entradas[j]? = some e := by
    intro j e hj
    rw [hentradas, List.getElem?_set] at hj
    by_cases hij : i = j
    · rw [if_pos hij] at hj
      split at hj
      · cases hj
        exact Or.inl ⟨hij.symm, rfl⟩
      · cases hj
    · rw [if_neg hij] at hj
      exact Or.inr ⟨Ne.symm hij, hj⟩
  have hcero : haceCuanto (ops ++ [op]) (claveDe x) = 0 := by
    rw [haceCuanto_concat, if_pos husa]
  have hpositivo : ∀ j e, t.entradas[j]? = some e → e.ocupada = true → j ≠ i →
      haceCuanto (ops ++ [op]) (claveDe e) = haceCuanto ops (claveDe e) + 1 := by
    intro j e hj he hne
    rw [haceCuanto_concat, if_neg]
    rw [husa]
    exact fun heq => hotras j e hj he hne (Option.some.inj heq).symm
  constructor
  · intro j e hj he
    rw [hhoras]
    rcases hget j e hj with ⟨rfl, rfl⟩ | ⟨hne, hj⟩
    · rw [Function.update_self]
      exact ⟨hts, Nat.lt_succ_self _⟩
    · rw [Function.update_of_ne hne]
      obtain ⟨hlect, hlt⟩ := h.lectura j e hj he
      exact ⟨hlect, hlt.trans (Nat.lt_succ_self _)⟩
  · intro j j' e e' hj hj' he he' hne
    rcases hget j e hj with ⟨rfl, rfl⟩ | ⟨hji, hj⟩
    · rcases hget j' e' hj' with ⟨rfl, -⟩ | ⟨hji', hj'⟩
      · exact absurd rfl hne
      · right
        rw [Function.update_self, Function.update_of_ne hji', hcero, hpositivo j' e' hj' he' hji']
        exact ⟨(h.lectura j' e' hj' he').2, Nat.succ_pos _⟩
    · rcases hget j' e' hj' with ⟨rfl, rfl⟩ | ⟨hji', hj'⟩
      · left
        rw [Function.update_self, Function.update_of_ne hji, hcero, hpositivo j e hj he hji]
        exact ⟨(h.lectura j e hj he).2, Nat.succ_pos _⟩
      · rw [Function.update_of_ne hji, Function.update_of_ne hji', hpositivo j e hj he hji,
          hpositivo j' e' hj' he' hji']
        have horden := h.orden j j' e e' hj hj' he he' hne
        omega

/-- A page that misses is not that of an occupied entry. -/
theorem falta_clave {pid pagina : ℤ} (hfalta : indiceTlb t.entradas pid pagina = none)
    {e : EntradaTlb} (he : e ∈ t.entradas) (hoc : e.ocupada = true) : claveDe e ≠ (pid, pagina) :=
  indice_none_iff.mp hfalta ⟨e.pid, e.pagina, e.marco⟩
    (List.mem_filterMap.mpr ⟨e, he, if_pos hoc⟩)

theorem recencia_paso (halg : cpu.algoritmoTlb = .lru) (h : Recencia cpu t ops hora)
    (hp : pasoTlb cpu op t = some t') : ∃ hora', Recencia cpu t' (ops ++ [op]) hora' := by
  rcases paso_casos hp with ⟨pid, pagina, i, rfl, hi, ⟨-, hno⟩ | ⟨rfl, -⟩⟩ |
    ⟨pid, pagina, rfl, hfalta, rfl⟩ | ⟨pid, pagina, marco, rfl, hfalta, rfl⟩ | ⟨rfl, rfl⟩
  · exact absurd halg hno
  · obtain ⟨marco, ts, hmapea⟩ := mapea_de_indice hi
    refine ⟨_, h.uso (i := i) (x := ⟨true, pid, pagina, marco, cpu.getTimestamp t.horas⟩) ?_ rfl
      rfl rfl ?_⟩
    · have hlt := (List.getElem?_eq_some_iff.mp hmapea).1
      rw [marcarTimestamp]
      dsimp only
      rw [List.modify_eq_set_getElem?, hmapea]
      rfl
    · intro j e hj he hne heq
      have horden := h.orden j i e _ hj hmapea he rfl hne
      rw [heq] at horden
      dsimp only [claveDe] at horden
      omega
  · refine ⟨hora, h.ajena fun e he hoc heq => ?_⟩
    exact falta_clave hfalta he hoc (Option.some.inj heq).symm
  · have hponer : ∀ i, ∃ hora', Recencia cpu (ponerEnTlb cpu t i pid pagina marco)
        (ops ++ [.agregar pid pagina marco]) hora' := by
      intro i
      refine ⟨_, h.uso (i := i) (x := ⟨true, pid, pagina, marco, cpu.getTimestamp t.horas⟩) rfl rfl
        rfl rfl ?_⟩
      intro j e hj he _
      exact falta_clave hfalta (List.mem_of_getElem? hj) he
    have hnada : ∃ hora', Recencia cpu t (ops ++ [.agregar pid pagina marco]) hora' := by
      refine ⟨hora, h.ajena fun e he hoc heq => ?_⟩
      exact falta_clave hfalta he hoc (Option.some.inj heq).symm
    rw [agregarATlb, reemplazarEnTlb, halg]
    split
    · exact hnada
    split
    · exact hponer _
    dsimp only
    split
    · exact hponer _
    · exact hnada
  · have hlibres : ∀ e ∈ (limpiarTlb t).entradas, e.ocupada = false := by
      intro e he
      rw [limpiarTlb] at he
      split at he
      · next hvacia =>
          rw [hvacia] at he
          cases he
      · obtain ⟨-, -, rfl⟩ := List.mem_map.mp he
        rfl
    refine ⟨hora, ⟨?_, ?_⟩⟩
    · intro i e hi he
      rw [hlibres e (List.mem_of_getElem? hi)] at he
      cases he
    · intro i j e e' hi _ he
      rw [hlibres e (List.mem_of_getElem? hi)] at he
      cases he

theorem recencia_inicial (cpu : Cpu) (n : ℕ) : ∃ hora, Recencia cpu (iniciarTlb n) [] hora := by
  have hlibres : ∀ e ∈ (iniciarTlb n).entradas, e.ocupada = false := by
    intro e he
    rw [List.eq_of_mem_replicate he]
  refine ⟨fun _ => 0, ⟨?_, ?_⟩⟩
  · intro i e hi he
    rw [hlibres e (List.mem_of_getElem? hi)] at he
    cases he
  · intro i j e e' hi _ he
    rw [hlibres e (List.mem_of_getElem? hi)] at he
    cases he

theorem largo_paso (hp : pasoTlb cpu op t = some t') : t'.entradas.length = t.entradas.length := by
  rcases paso_casos hp with ⟨pid, pagina, i, -, -, ⟨rfl, -⟩ | ⟨rfl, -⟩⟩ | ⟨pid, pagina, -, -, rfl⟩ |
    ⟨pid, pagina, marco, -, -, rfl⟩ | ⟨-, rfl⟩
  · rfl
  · exact List.length_modify _ _ _
  · rfl
  · exact length_agregar
  · exact length_limpiar

/-- One of the entries of a full TLB has the earliest reading. -/
theorem menos_reciente (h : Recencia cpu t ops hora) (hne : t.entradas ≠ [])
    (hllena : ∀ e ∈ t.entradas, e.ocupada = true) : ∃ i e, t.entradas[i]? = some e ∧
      MenosReciente ops t i ∧ ∀ j e', t.entradas[j]? = some e' → hora i ≤ hora j := by
  have hlen : 0 < t.entradas.length := List.length_pos_of_ne_nil hne
  obtain ⟨i, hi, hmin⟩ := Finset.exists_min_image (Finset.range t.entradas.length) hora
    ⟨0, Finset.mem_range.mpr hlen⟩
  have hi := Finset.mem_range.mp hi
  have hget : t.entradas[i]? = some t.entradas[i] := List.getElem?_eq_getElem hi
  have hmenor : ∀ j e', t.entradas[j]? = some e' → hora i ≤ hora j := by
    intro j e' hj
    exact hmin j (Finset.mem_range.mpr (List.getElem?_eq_some_iff.mp hj).1)
  refine ⟨i, t.entradas[i], hget, ⟨t.entradas[i], hget, ?_⟩, hmenor⟩
  intro j e' hj hji
  have horden := h.orden i j _ e' hget hj (hllena _ (List.mem_of_getElem? hget))
    (hllena e' (List.mem_of_getElem? hj)) hji.symm
  have hle := hmenor j e' hj
  omega

end Recencias

/-- Which entry is written tells where a page that was missing went. -/
theorem poner_inj {cpu : Cpu} {t : Tlb} {pid pagina marco : ℤ} {i j : ℕ} {e : EntradaTlb}
    (hi : t.entradas[i]? = some e) (hclave : claveDe e ≠ (pid, pagina))
    (h : ponerEnTlb cpu t j pid pagina marco = ponerEnTlb cpu t i pid pagina marco) : j = i := by
  by_contra hne
  have hentrada := congrArg (fun t : Tlb => t.entradas[i]?) h
  have hlt : i < t.entradas.length := (List.getElem?_eq_some_iff.mp hi).1
  simp only [ponerEnTlb, List.getElem?_set_ne hne, List.getElem?_set_self hlt, hi] at hentrada
  cases hentrada
  exact hclave rfl

/-- What LRU replaces is the least recently used entry when no entry before it has its
timestamp. -/
theorem reemplazo_lru_iff (cpu : Cpu) (halg : cpu.algoritmoTlb = .lru)
    (hreloj : ∀ i j, i ≤ j → cpu.getTimestamp i ≤ cpu.getTimestamp j) (n : ℕ) (hn : 1 ≤ n)
    (ops : List OpTlb) (t : Tlb)
    (hrun : correr (pasoTlb cpu) ops (iniciarTlb n) = some t)
    (hllena : ∀ e ∈ t.entradas, e.ocupada = true) (pid pagina marco : ℤ)
    (hfalta : indiceTlb t.entradas pid pagina = none) :
    ∃ i, MenosReciente ops t i ∧
      (agregarATlb cpu t pid pagina marco = ponerEnTlb cpu t i pid pagina marco ↔
        Distinguible t i) := by
  obtain ⟨hlen, hora, hrec⟩ : t.entradas.length = n ∧ ∃ hora, Recencia cpu t ops hora := by
    refine invariante_historia
      (I := fun ops t => t.entradas.length = n ∧ ∃ hora, Recencia cpu t ops hora)
      ⟨List.length_replicate, recencia_inicial cpu n⟩ ?_ hrun
    rintro ops op t t' - ⟨hlen, hora, hrec⟩ hp
    exact ⟨(largo_paso hp).trans hlen, recencia_paso halg hrec hp⟩
  have hne : t.entradas ≠ [] := by
    intro hnil
    rw [hnil] at hlen
    exact absurd hlen.symm (Nat.ne_of_gt hn)
  obtain ⟨i, e, hi, hmenos, hmin⟩ := menos_reciente hrec hne hllena
  have hts : ∀ e' ∈ t.entradas, e.timestamp ≤ e'.timestamp := by
    intro e' he'
    obtain ⟨j, hj⟩ := List.mem_iff_getElem?.mp he'
    rw [(hrec.lectura i e hi (hllena e (List.mem_of_getElem? hi))).1,
      (hrec.lectura j e' hj (hllena e' he')).1]
    exact hreloj _ _ (hmin j e' hj)
  refine ⟨i, hmenos, ?_⟩
  rw [← victimaLru_iff hi hts]
  have hsinLibre : t.entradas.findIdx? (fun e => !e.ocupada) = none := by
    rw [List.findIdx?_eq_none_iff]
    intro e' he'
    rw [hllena e' he']
    rfl
  have hclave := falta_clave hfalta (List.mem_of_getElem? hi) (hllena e (List.mem_of_getElem? hi))
  rw [agregarATlb, if_neg hne, hsinLibre, reemplazarEnTlb, halg]
  dsimp only
  cases hv : victimaLru t.entradas with
  | none =>
    dsimp only
    constructor
    · intro heq
      have hhoras := congrArg Tlb.horas heq
      exact absurd hhoras (Nat.ne_of_lt (Nat.lt_succ_self _))
    · intro h
      cases h
  | some v =>
    dsimp only
    rw [Option.some_inj]
    constructor
    · exact poner_inj hi hclave
    · rintro rfl
      rfl

/-- LRU with a clock whose readings are given, the last one for ever. -/
def cpuLru (lecturas : List UInt64) (ultima : UInt64) : Cpu :=
  { cpuEjemplo with algoritmoTlb := .lru, getTimestamp := fun i => lecturas.getD i ultima }

/-- Two pages are added and the first is used again. -/
def dosPaginas : List OpTlb := [.agregar 1 0 5, .agregar 1 1 6, .buscar 1 0]

theorem reemplazo_lru_ejemplo : ∃ t, correr (pasoTlb (cpuLru [3, 4] 9)) dosPaginas (iniciarTlb 2) =
    some t ∧ ∃ i, MenosReciente dosPaginas t i ∧
      (agregarATlb (cpuLru [3, 4] 9) t 1 2 7 = ponerEnTlb (cpuLru [3, 4] 9) t i 1 2 7 ↔
        Distinguible t i) := by
  refine ⟨_, rfl, reemplazo_lru_iff (cpuLru [3, 4] 9) rfl ?_ 2 (by decide) dosPaginas _ rfl
    (by decide)
    1 2 7 (by decide)⟩
  intro i j hij
  match i, j with
  | 0, 0 | 0, 1 | 1, 1 => decide
  | 1, 0 => cases hij
  | 0, j + 2 | 1, j + 2 | i + 2, j + 2 => exact of_decide_eq_true rfl
  | i + 2, 0 | i + 2, 1 => omega

/-- Both pages and the hit get the same millisecond: the page that was just used is replaced. -/
theorem reemplaza_la_reciente : ¬ ∀ (cpu : Cpu), cpu.algoritmoTlb = .lru →
    (∀ i j, i ≤ j → cpu.getTimestamp i ≤ cpu.getTimestamp j) →
    ∀ (n : ℕ), 1 ≤ n → ∀ (ops : List OpTlb) (t : Tlb),
      correr (pasoTlb cpu) ops (iniciarTlb n) = some t → (∀ e ∈ t.entradas, e.ocupada = true) →
      ∀ pid pagina marco, indiceTlb t.entradas pid pagina = none →
        ∃ i, MenosReciente ops t i ∧
          agregarATlb cpu t pid pagina marco = ponerEnTlb cpu t i pid pagina marco := by
  intro h
  obtain ⟨i, ⟨e, hi, hmenos⟩, hreemplaza⟩ := h (cpuLru [] 5) rfl (fun _ _ _ => UInt64.le_rfl) 2
    (by decide) dosPaginas _ rfl (by decide) 1 2 7 (by decide)
  match i with
  | 0 =>
    cases hi
    exact absurd (hmenos 1 _ rfl (by decide)) (by decide)
  | 1 => exact absurd hreemplaza (by decide)
  | i + 2 => cases hi

end CpuTlbLru

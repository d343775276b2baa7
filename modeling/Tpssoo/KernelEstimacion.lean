import Tpssoo.PromedioExponencial
import Tpssoo.CpuInstrucciones
import Tpssoo.KernelFunciones
import Mathlib.Data.List.TakeWhile
import Mathlib.Tactic.Positivity

/-!
# Burst estimates

`main` reads ALFA twice for SJF and SRT, the second time with `config_get_long_value`, which
stops at the decimal point. The estimate of a process is then the exponential average of its
bursts with the integer part of ALFA, and a guard turns an estimate that is not positive into 1.
-/
namespace KernelEstimacion

open EnterosC KernelEstado KernelFunciones PromedioExponencial
open CpuInstrucciones (esDigito valorDigitos)

section Textos

/-- The two readers of the configuration: the integer at the start of the text, and the whole
number. -/
structure Lectores where
  configGetLongValue : List Byte → ℤ
  configGetDoubleValue : List Byte → ℚ

def parteEntera (q : ℚ) : ℤ := if q < 0 then ⌈q⌉ else ⌊q⌋

/-- They read decimal notation in the same way. -/
def Lectores.Concuerdan (L : Lectores) (xs : List Byte) : Prop :=
  L.configGetLongValue xs = parteEntera (L.configGetDoubleValue xs)

theorem parteEntera_unidad {q : ℚ} (h₀ : 0 ≤ q) (h₁ : q ≤ 1) :
    parteEntera q = if q = 1 then 1 else 0 := by
  rw [parteEntera, if_neg h₀.not_gt]
  split
  · next huno => rw [huno, Int.floor_one]
  · next huno => exact Int.floor_eq_zero_iff.mpr ⟨h₀, lt_of_le_of_ne h₁ huno⟩

/-- What follows the decimal point, if there is one. -/
def fraccion (xs : List Byte) : ℚ :=
  match xs.dropWhile esDigito with
  | 46 :: ys => (valorDigitos ys : ℚ) / 10 ^ (ys.takeWhile esDigito).length
  | _ => 0

/-- The readers of decimal notation. -/
def lectoresDecimales : Lectores where
  configGetLongValue xs :=
    if xs.head? = some 45 then -(valorDigitos xs.tail) else valorDigitos xs
  configGetDoubleValue xs :=
    if xs.head? = some 45 then -(valorDigitos xs.tail + fraccion xs.tail)
    else valorDigitos xs + fraccion xs

theorem foldl_digitos_lt {xs : List Byte} (h : ∀ b ∈ xs, esDigito b = true) (n : ℕ) :
    xs.foldl (fun n b => 10 * n + (b.toNat - 48)) n < 10 ^ xs.length * (n + 1) := by
  induction xs generalizing n with
  | nil => simp
  | cons b bs ih =>
    have hb : b.toNat - 48 ≤ 9 := by
      have hdigito := h b List.mem_cons_self
      simp only [esDigito, Bool.and_eq_true, decide_eq_true_eq] at hdigito
      have hmax : b.toNat ≤ 57 := hdigito.2
      omega
    have hresto := ih (fun c hc => h c (List.mem_cons_of_mem b hc)) (10 * n + (b.toNat - 48))
    have hpot : 10 ^ bs.length * (10 * n + (b.toNat - 48) + 1) ≤ 10 ^ bs.length * (10 * (n + 1)) :=
      Nat.mul_le_mul_left _ (by omega)
    rw [List.foldl_cons, List.length_cons, pow_succ, Nat.mul_assoc]
    exact hresto.trans_le hpot

theorem fraccion_rango (xs : List Byte) : 0 ≤ fraccion xs ∧ fraccion xs < 1 := by
  rw [fraccion]
  split
  · next ys hys =>
      have hdigitos : ∀ b ∈ ys.takeWhile esDigito, esDigito b = true := fun b hb =>
        List.mem_takeWhile_imp hb
      have hmenor := foldl_digitos_lt hdigitos 0
      rw [Nat.zero_add, Nat.mul_one] at hmenor
      have hpos : (0 : ℚ) < 10 ^ (ys.takeWhile esDigito).length := by positivity
      constructor
      · exact div_nonneg (Nat.cast_nonneg _) hpos.le
      · rw [div_lt_one hpos]
        exact_mod_cast hmenor
  · exact ⟨le_rfl, zero_lt_one⟩

theorem parteEntera_suma {n : ℕ} {f : ℚ} (hf : 0 ≤ f) (hf' : f < 1) :
    parteEntera (n + f) = n ∧ parteEntera (-(n + f)) = -n := by
  have hn : (0 : ℚ) ≤ n := Nat.cast_nonneg n
  have hsuelo : ⌊(n : ℚ) + f⌋ = n := by
    rw [Int.floor_natCast_add, Int.floor_eq_zero_iff.mpr ⟨hf, hf'⟩, add_zero]
  constructor
  · rw [parteEntera, if_neg (by linarith), hsuelo]
  · rw [parteEntera]
    split
    · rw [Int.ceil_neg, hsuelo]
    · next hcero =>
      have hnada : (n : ℚ) + f = 0 := by linarith
      rw [hnada, Int.floor_zero] at hsuelo
      rw [hnada, neg_zero, Int.floor_zero, ← hsuelo, neg_zero]

theorem concuerdan_decimales (xs : List Byte) : lectoresDecimales.Concuerdan xs := by
  by_cases hsigno : xs.head? = some 45
  · obtain ⟨hf, hf'⟩ := fraccion_rango xs.tail
    have hlong : lectoresDecimales.configGetLongValue xs = -(valorDigitos xs.tail) :=
      if_pos hsigno
    have hdouble : lectoresDecimales.configGetDoubleValue xs =
        -(valorDigitos xs.tail + fraccion xs.tail) := if_pos hsigno
    rw [Lectores.Concuerdan, hlong, hdouble]
    exact (parteEntera_suma hf hf').2.symm
  · obtain ⟨hf, hf'⟩ := fraccion_rango xs
    have hlong : lectoresDecimales.configGetLongValue xs = valorDigitos xs := if_neg hsigno
    have hdouble : lectoresDecimales.configGetDoubleValue xs =
        valorDigitos xs + fraccion xs := if_neg hsigno
    rw [Lectores.Concuerdan, hlong, hdouble]
    exact (parteEntera_suma hf hf').1.symm

end Textos

/-- What `main` reads to plan: the two algorithms, `ESTIMACION_INICIAL`, `ALFA` and
`TIEMPO_SUSPENSION`. -/
structure ConfigTextos where
  algoritmoCortoPlazo : AlgoritmoCortoPlazo
  algoritmoLargoPlazo : AlgoritmoLargoPlazo
  estimacionInicial : List Byte
  alfa : List Byte
  tiempoSuspension : ℤ

/-- The second reading of `main`, which ends the program when ALFA is out of range. -/
def cargarConfig (L : Lectores) (t : ConfigTextos) : Option ConfigKernel :=
  let c : ConfigKernel :=
    { algoritmoCortoPlazo := t.algoritmoCortoPlazo
      algoritmoLargoPlazo := t.algoritmoLargoPlazo
      estimacionInicial := L.configGetDoubleValue t.estimacionInicial
      alfa := L.configGetDoubleValue t.alfa
      tiempoSuspension := t.tiempoSuspension }
  if t.algoritmoCortoPlazo = .sjf ∨ t.algoritmoCortoPlazo = .srt then
    let alfa : ℚ := L.configGetLongValue t.alfa
    if alfa < 0 ∨ 1 < alfa then none else some { c with alfa := alfa }
  else some c

section Rafagas

variable {c : ConfigKernel} {p : Pcb} {rs : List ℚ} {r : ℚ}

/-- The end of a burst of `r` milliseconds that no interrupt ended. -/
def terminarRafaga (c : ConfigKernel) (p : Pcb) (r : ℚ) : Pcb :=
  calcularSiguienteRafaga c { p with rafagaRealAnterior := r }

def trasRafagas (c : ConfigKernel) (p : Pcb) (rs : List ℚ) : Pcb := rs.foldl (terminarRafaga c) p

/-- What the response of a CPU does to the estimate is the end of a burst of the time charged. -/
theorem estimacion_respuesta (hc : c.algoritmoCortoPlazo = .sjf ∨ c.algoritmoCortoPlazo = .srt)
    (ahora pc : ℤ) {motivo : Motivo} (hmotivo : motivo ≠ .interrupcion) :
    actualizarRafaga c ahora pc motivo p =
      { terminarRafaga c p ((ahora - p.tiempoInicioEjecucionCpu : ℤ) : ℚ) with
        programCounter := pc } := by
  rw [actualizarRafaga, if_neg hmotivo, if_pos hc]
  rfl

theorem estimacion_terminar : (terminarRafaga c p r).estimacionRafaga =
    if 0 < promediar c.alfa p.estimacionRafaga r then promediar c.alfa p.estimacionRafaga r
    else 1 := rfl

theorem trasRafagas_concat : trasRafagas c p (rs ++ [r]) =
    terminarRafaga c (trasRafagas c p rs) r := by
  rw [trasRafagas, trasRafagas, List.foldl_append]
  rfl

/-- With ALFA read as 0 the estimate never changes. -/
theorem estimacion_cero (hc : c.alfa = 0) (he : 0 < p.estimacionRafaga) (rs : List ℚ) :
    (trasRafagas c p rs).estimacionRafaga = p.estimacionRafaga := by
  induction rs using List.reverseRecOn with
  | nil => rfl
  | append_singleton rs r ih =>
    have hpromedio : promediar c.alfa p.estimacionRafaga r = p.estimacionRafaga := by
      rw [promediar, hc]
      ring
    rw [trasRafagas_concat, estimacion_terminar, ih, hpromedio, if_pos he]

/-- With ALFA read as 1 the estimate is the last burst, or 1 when that burst took no time. -/
theorem estimacion_uno (hc : c.alfa = 1) (rs : List ℚ) (r : ℚ) :
    (trasRafagas c p (rs ++ [r])).estimacionRafaga = if 0 < r then r else 1 := by
  have hpromedio : promediar c.alfa (trasRafagas c p rs).estimacionRafaga r = r := by
    rw [promediar, hc]
    ring
  rw [trasRafagas_concat, estimacion_terminar, hpromedio]

/-- The estimates after each burst are the exponential average with weight `a`, and lie between
the least and the greatest of the first estimate and the bursts so far. -/
def EsPromedio (c : ConfigKernel) (a : ℚ) (p : Pcb) (rs : List ℚ) : Prop :=
  ∀ i ≤ rs.length,
    (trasRafagas c p (rs.take i)).estimacionRafaga =
      promedio a p.estimacionRafaga (rs.take i) ∧
    (∃ x ∈ p.estimacionRafaga :: rs.take i,
      x ≤ (trasRafagas c p (rs.take i)).estimacionRafaga) ∧
    ∃ y ∈ p.estimacionRafaga :: rs.take i,
      (trasRafagas c p (rs.take i)).estimacionRafaga ≤ y

theorem esPromedio_iff {a : ℚ} (ha : 0 ≤ a) (ha' : a ≤ 1) :
    EsPromedio c a p rs ↔ ∀ i ≤ rs.length, (trasRafagas c p (rs.take i)).estimacionRafaga =
      promedio a p.estimacionRafaga (rs.take i) := by
  constructor
  · exact fun h i hi => (h i hi).1
  · intro h i hi
    obtain ⟨hmenor, hmayor⟩ : (∃ x ∈ p.estimacionRafaga :: rs.take i,
        x ≤ promedio a p.estimacionRafaga (rs.take i)) ∧
        ∃ y ∈ p.estimacionRafaga :: rs.take i, promedio a p.estimacionRafaga (rs.take i) ≤ y :=
      promedio_entre ha ha'
    rw [← h i hi] at hmenor hmayor
    exact ⟨h i hi, hmenor, hmayor⟩

/-- When the integer part of ALFA gives the same averages as ALFA. -/
def AlfaAlcanza (a e : ℚ) (rs : List ℚ) : Prop :=
  a = 0 ∨ (a = 1 ∧ ∀ r ∈ rs, 0 < r) ∨ ∀ r ∈ rs, r = e

theorem take_partido {α : Type*} (l r : List α) (x : α) :
    (l ++ x :: r).take l.length = l ∧ (l ++ x :: r).take (l.length + 1) = l ++ [x] := by
  constructor
  · exact List.take_left
  · rw [List.take_length_add_append]
    rfl

/-- ALFA is 1: a burst that took no time leaves an estimate of 1. -/
theorem promedio_uno_iff (hc : c.alfa = 1) (hrs : ∀ r ∈ rs, 0 ≤ r) :
    (∀ i ≤ rs.length, (trasRafagas c p (rs.take i)).estimacionRafaga =
      promedio 1 p.estimacionRafaga (rs.take i)) ↔ ∀ r ∈ rs, 0 < r := by
  have hpromedio : ∀ (l : List ℚ) (r : ℚ), promedio 1 p.estimacionRafaga (l ++ [r]) = r := by
    intro l r
    rw [promedio_concat, promediar]
    ring
  constructor
  · intro h r hr
    obtain ⟨l, l', rfl⟩ := List.append_of_mem hr
    have huno := h (l.length + 1) (by simp)
    rw [(take_partido l l' r).2, estimacion_uno hc, hpromedio] at huno
    by_contra hno
    rw [if_neg hno] at huno
    rw [← huno] at hno
    exact hno zero_lt_one
  · intro h i hi
    rcases List.eq_nil_or_concat (rs.take i) with hvacia | ⟨l, r, hl⟩
    · rw [hvacia]
      rfl
    · have hr : r ∈ rs := List.take_subset i rs (hl ▸ by simp)
      rw [hl, List.concat_eq_append, estimacion_uno hc, hpromedio, if_pos (h r hr)]

/-- ALFA is read as 0: the estimate stays where it was. -/
theorem promedio_cero_iff (hc : c.alfa = 0) (he : 0 < p.estimacionRafaga) {a : ℚ} :
    (∀ i ≤ rs.length, (trasRafagas c p (rs.take i)).estimacionRafaga =
      promedio a p.estimacionRafaga (rs.take i)) ↔ a = 0 ∨ ∀ r ∈ rs, r = p.estimacionRafaga := by
  constructor
  · intro h
    refine or_iff_not_imp_left.mpr fun ha r hr => ?_
    obtain ⟨l, l', rfl⟩ := List.append_of_mem hr
    have hantes := h l.length (by simp)
    have hluego := h (l.length + 1) (by simp)
    rw [(take_partido l l' r).1, estimacion_cero hc he] at hantes
    rw [(take_partido l l' r).2, estimacion_cero hc he, promedio_concat, ← hantes] at hluego
    exact (promediar_eq_iff ha).mp hluego.symm
  · intro h i hi
    rw [estimacion_cero hc he]
    exact (promedio_constante (h.imp_right fun h r hr => h r (List.take_subset i rs hr))).symm

/-- The estimates of a new process are the exponential average of its bursts with the configured
ALFA exactly when the integer part of ALFA is enough. -/
theorem estimacion_exponencial_iff (L : Lectores) (t : ConfigTextos)
    (hlee : L.Concuerdan t.alfa)
    (halg : t.algoritmoCortoPlazo = .sjf ∨ t.algoritmoCortoPlazo = .srt)
    (ha : 0 ≤ L.configGetDoubleValue t.alfa) (ha' : L.configGetDoubleValue t.alfa ≤ 1)
    (he : 0 < L.configGetDoubleValue t.estimacionInicial) (k : Kernel) (path : List Byte)
    (tamanio : ℤ) (absoluto : Option (List Byte)) (rs : List ℚ) (hrs : ∀ r ∈ rs, 0 ≤ r) :
    ∃ c p, cargarConfig L t = some c ∧
      (crearPcb c k path tamanio absoluto).pcbs k.ultimoPid = some p ∧
      p.estimacionRafaga = L.configGetDoubleValue t.estimacionInicial ∧
      (EsPromedio c (L.configGetDoubleValue t.alfa) p rs ↔
        AlfaAlcanza (L.configGetDoubleValue t.alfa) (L.configGetDoubleValue t.estimacionInicial)
          rs) := by
  obtain ⟨c, hc, halfa, hestimacion⟩ : ∃ c, cargarConfig L t = some c ∧
      c.alfa = (if L.configGetDoubleValue t.alfa = 1 then 1 else 0) ∧
      c.estimacionInicial = L.configGetDoubleValue t.estimacionInicial := by
    have hlong : (L.configGetLongValue t.alfa : ℚ) =
        if L.configGetDoubleValue t.alfa = 1 then 1 else 0 := by
      rw [hlee, parteEntera_unidad ha ha']
      split <;> rfl
    simp only [cargarConfig, if_pos halg, hlong]
    rw [if_neg]
    · exact ⟨_, rfl, rfl, rfl⟩
    · split <;> norm_num
  obtain ⟨p, hp, hinicial⟩ : ∃ p, (crearPcb c k path tamanio absoluto).pcbs k.ultimoPid = some p ∧
      p.estimacionRafaga = c.estimacionInicial := by
    rw [crearPcb]
    split
    · exact ⟨_, Function.update_self _ _ _, rfl⟩
    · exact ⟨_, Function.update_self _ _ _, rfl⟩
  rw [hestimacion] at hinicial
  refine ⟨c, p, hc, hp, hinicial, ?_⟩
  rw [esPromedio_iff ha ha', AlfaAlcanza, ← hinicial]
  by_cases huno : L.configGetDoubleValue t.alfa = 1
  · rw [if_pos huno] at halfa
    rw [huno, promedio_uno_iff halfa hrs]
    constructor
    · exact fun h => Or.inr (Or.inl ⟨rfl, h⟩)
    · rintro (h | ⟨-, h⟩ | h)
      · exact absurd h one_ne_zero
      · exact h
      · intro r hr
        rw [h r hr, hinicial]
        exact he
  · rw [if_neg huno] at halfa
    rw [promedio_cero_iff halfa (hinicial ▸ he)]
    constructor
    · exact Or.imp_right Or.inr
    · rintro (h | ⟨h, -⟩ | h)
      · exact Or.inl h
      · exact absurd h huno
      · exact Or.inr h

/-- ALFA=1 and one burst of 5 milliseconds. -/
def configUno : ConfigTextos := ⟨.srt, .fifo, [49, 48], [49], 0⟩

theorem estimacion_exponencial_ejemplo : ∃ c p,
    cargarConfig lectoresDecimales configUno = some c ∧
    (crearPcb c inicial [65] 10 none).pcbs 0 = some p ∧ EsPromedio c 1 p [5] := by
  have hlee : lectoresDecimales.configGetDoubleValue [49] = 1 ∧
      lectoresDecimales.configGetDoubleValue [49, 48] = 10 := by
    constructor <;> decide +kernel
  obtain ⟨c, p, hc, hp, -, h⟩ := estimacion_exponencial_iff lectoresDecimales configUno
    (concuerdan_decimales _) (Or.inr rfl)
    (by rw [configUno, hlee.1]; exact zero_le_one) (by rw [configUno, hlee.1])
    (by rw [configUno, hlee.2]; norm_num) inicial [65] 10 none [5] (by simp)
  refine ⟨c, p, hc, hp, ?_⟩
  rw [configUno, hlee.1] at h
  exact h.mpr (Or.inr (Or.inl ⟨rfl, by simp⟩))

/-- ALFA=0.5, ESTIMACION_INICIAL=10, and one burst of 20 milliseconds: the estimate stays at 10. -/
theorem alfa_truncada : ∃ c p,
    cargarConfig lectoresDecimales ⟨.srt, .fifo, [49, 48], [48, 46, 53], 0⟩ = some c ∧
    lectoresDecimales.configGetDoubleValue [48, 46, 53] = 1 / 2 ∧
    (crearPcb c inicial [65] 10 none).pcbs 0 = some p ∧
    (trasRafagas c p [20]).estimacionRafaga = 10 ∧ ¬ EsPromedio c (1 / 2) p [20] := by
  have hlee : lectoresDecimales.configGetDoubleValue [48, 46, 53] = 1 / 2 := by decide +kernel
  obtain ⟨c, p, hc, hp, hest, hpar⟩ : ∃ c p,
      cargarConfig lectoresDecimales ⟨.srt, .fifo, [49, 48], [48, 46, 53], 0⟩ = some c ∧
      (crearPcb c inicial [65] 10 none).pcbs 0 = some p ∧
      (trasRafagas c p [20]).estimacionRafaga = 10 ∧ p.estimacionRafaga = 10 := by
    refine ⟨_, _, rfl, rfl, ?_, ?_⟩ <;> decide +kernel
  refine ⟨c, p, hc, hlee, hp, hest, fun h => ?_⟩
  have huno : (trasRafagas c p [20]).estimacionRafaga = promedio (1 / 2) p.estimacionRafaga [20] :=
    (h 1 le_rfl).1
  rw [hest, hpar, promedio, List.foldl_cons, List.foldl_nil, promediar] at huno
  norm_num at huno

end Rafagas

end KernelEstimacion

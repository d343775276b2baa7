import Tpssoo.CpuInstrucciones

/-!
# Hostile instruction payloads

Which payloads of `INSTRUCCION_OK` make the parsing loop of `fetch` copy outside the payload or
ask for a negative size. The lengths that the loop meets are announced by the payload itself.
-/
namespace CpuFetch

open EnterosC RangosBytes MemoriaEstado CpuInstrucciones

variable {xs : List Byte} {n desde : ℕ} {largo : ℤ}

section Rebanadas

/-- Consecutive parameters from an offset, each with its length in front; one with no bytes is a
null pointer. -/
def ParametrosEn (xs : List Byte) : ℕ → List (Option (List Byte)) → Prop
  | _, [] => True
  | desde, p :: ps => ∃ largo, leerInt xs desde = some largo ∧ 0 ≤ largo ∧
      (desde : ℤ) + 4 + largo ≤ xs.length ∧ p.getD [] = leerRango xs (desde + 4) largo.toNat ∧
      ParametrosEn xs (desde + 4 + largo.toNat) ps

/-- The fields of the instruction are consecutive slices of the payload, with the lengths
announced in it. -/
def Rebanada (xs : List Byte) (inst : InstruccionCpu) : Prop :=
  ∃ largo, leerInt xs 0 = some largo ∧ 0 ≤ largo ∧ 4 + largo ≤ xs.length ∧
    inst.opcode = leerRango xs 4 largo.toNat ∧
    leerInt xs (4 + largo.toNat) = some (inst.parametros.length : ℤ) ∧
    inst.parametros.length ≤ MAX_PARAMETROS ∧
    ParametrosEn xs (8 + largo.toNat) inst.parametros

/-- A null pointer, or an instruction cut out of the payload; no other read. -/
def FetchSeguro (xs : List Byte) : Prop :=
  ∃ r, deserializarInstruccion xs = some r ∧ ∀ inst, r = some inst → Rebanada xs inst

end Rebanadas

section Anunciadas

/-- The lengths of the parameters that the loop reads, in the payload. -/
def anunciadas (xs : List Byte) : ℕ → ℕ → List ℤ
  | 0, _ => []
  | n + 1, desde =>
    match leerInt xs desde with
    | none => []
    | some largo => largo :: anunciadas xs n (desde + 4 + largo.toNat)

/-- Where the last parameter read ends, or would end. -/
def hasta (xs : List Byte) (n desde : ℕ) : ℕ :=
  desde + ((anunciadas xs n desde).map fun largo => 4 + largo.toNat).sum

/-- Every parameter is there. -/
def Enteros (xs : List Byte) (n desde : ℕ) : Prop :=
  (anunciadas xs n desde).length = n ∧ hasta xs n desde ≤ xs.length

/-- The ends of the parameters fit in an `int`, and none has a negative length when they are all
in the payload. -/
def ParametrosSeguros (xs : List Byte) (n desde : ℕ) : Prop :=
  hasta xs n desde < 2 ^ 31 ∧
    (Enteros xs n desde → ∀ largo ∈ anunciadas xs n desde, 0 ≤ largo)

/-- The payload has an opcode and a number of parameters within the array, and the lengths that
it announces are safe. -/
def Anuncia (xs : List Byte) : Prop :=
  ∃ largo cantidad, leerInt xs 0 = some largo ∧ 0 ≤ largo ∧
    leerInt xs (4 + largo.toNat) = some cantidad ∧ 0 ≤ cantidad ∧ cantidad ≤ MAX_PARAMETROS ∧
      ParametrosSeguros xs cantidad.toNat (8 + largo.toNat)

theorem leerInt_cabe (h : leerInt xs desde = some largo) : desde + 4 ≤ xs.length := by
  rw [leerInt] at h
  split at h
  · assumption
  · cases h

theorem leerInt_corto (h : xs.length < desde + 4) : leerInt xs desde = none := by
  rw [leerInt, if_neg (by omega)]

theorem anunciadas_corto (h : xs.length < desde) : anunciadas xs n desde = [] := by
  cases n with
  | zero => rfl
  | succ n => rw [anunciadas, leerInt_corto (by omega)]

theorem hasta_corto (h : xs.length < desde) : hasta xs n desde = desde := by
  rw [hasta, anunciadas_corto h]
  rfl

theorem anunciadas_succ (h : leerInt xs desde = some largo) :
    anunciadas xs (n + 1) desde = largo :: anunciadas xs n (desde + 4 + largo.toNat) ∧
      hasta xs (n + 1) desde = hasta xs n (desde + 4 + largo.toNat) := by
  have hlista : anunciadas xs (n + 1) desde =
      largo :: anunciadas xs n (desde + 4 + largo.toNat) := by
    rw [anunciadas, h]
  refine ⟨hlista, ?_⟩
  rw [hasta, hlista, hasta, List.map_cons, List.sum_cons]
  omega

theorem enteros_succ (h : leerInt xs desde = some largo) :
    Enteros xs (n + 1) desde ↔ Enteros xs n (desde + 4 + largo.toNat) := by
  obtain ⟨hlista, hhasta⟩ := anunciadas_succ (n := n) h
  rw [Enteros, Enteros, hlista, hhasta, List.length_cons, Nat.add_right_cancel_iff]

theorem not_enteros_none (h : leerInt xs desde = none) : ¬ Enteros xs (n + 1) desde := by
  rintro ⟨hlargo, -⟩
  rw [anunciadas, h] at hlargo
  cases hlargo

theorem le_hasta : desde ≤ hasta xs n desde := Nat.le_add_right _ _

end Anunciadas

section Trozos

/-- The test on the `int` sum is right while the sum fits. -/
theorem leerTrozo_casos (hxs : xs.length < 2 ^ 31) (hdesde : desde ≤ xs.length)
    (hpos : 0 ≤ largo) (hint : largo < 2 ^ 31) :
    leerTrozo xs desde largo =
      if 2 ^ 31 ≤ desde + largo.toNat then none
      else if xs.length < desde + largo.toNat then some none
      else some (some (leerRango xs desde largo.toNat)) := by
  obtain ⟨l, rfl⟩ := Int.eq_ofNat_of_zero_le hpos
  rw [leerTrozo, Int.toNat_natCast]
  by_cases hcabe : desde + l < 2 ^ 31
  · rw [aInt_eq ⟨by omega, by omega⟩, if_neg (show ¬ 2 ^ 31 ≤ desde + l by omega)]
    by_cases hfuera : xs.length < desde + l
    · rw [if_pos (by omega), if_pos hfuera]
    · rw [if_neg (by omega), if_neg hfuera, if_pos (by omega)]
  · have hvuelta : aInt (desde + (l : ℤ)) < 0 := by
      have hresto : aInt ((desde : ℤ) + l - 2 ^ 32) = aInt (desde + (l : ℤ)) := by
        rw [← aInt_emod, ← aInt_emod (desde + (l : ℤ))]
        congr 1
        omega
      rw [← hresto, aInt_eq ⟨by omega, by omega⟩]
      omega
    rw [if_neg (by omega), if_neg (by omega), if_pos (by omega)]

theorem leerTrozo_negativo (hdesde : desde ≤ xs.length) (hneg : largo < 0)
    (hint : -2 ^ 31 ≤ largo) (hxs : xs.length < 2 ^ 31) : leerTrozo xs desde largo = none := by
  rw [leerTrozo, aInt_eq ⟨by omega, by omega⟩, if_neg (by omega), if_neg (by omega)]

theorem leerInt_esInt (h : leerInt xs desde = some largo) : EsInt largo := by
  rw [leerInt] at h
  split at h
  · rw [← Option.some.inj h]
    exact esInt_aInt _
  · cases h

end Trozos

section Parametros

variable {ps : List (Option (List Byte))}

/-- The three ends of the loop: an offset that does not fit, a payload that is too short, and all
the parameters. -/
theorem leerParametros_casos (hxs : xs.length < 2 ^ 31) (hdesde : desde ≤ xs.length) :
    (2 ^ 31 ≤ hasta xs n desde ∧ leerParametros xs n desde = none) ∨
    (hasta xs n desde < 2 ^ 31 ∧ ¬ Enteros xs n desde ∧
      leerParametros xs n desde = some none) ∨
    (hasta xs n desde < 2 ^ 31 ∧ Enteros xs n desde ∧
      ∃ ps, leerParametros xs n desde = some (some ps) ∧ ps.length = n ∧
        (ParametrosEn xs desde ps ↔ ∀ largo ∈ anunciadas xs n desde, 0 ≤ largo)) := by
  induction n generalizing desde with
  | zero =>
    refine Or.inr (Or.inr ⟨?_, ⟨rfl, hdesde⟩, [], rfl, rfl, ?_⟩)
    · exact hdesde.trans_lt hxs
    · exact iff_of_true trivial fun largo h => absurd h List.not_mem_nil
  | succ n ih =>
    cases hlee : leerInt xs desde with
    | none =>
      refine Or.inr (Or.inl ⟨?_, not_enteros_none hlee, ?_⟩)
      · rw [hasta, anunciadas, hlee]
        exact hdesde.trans_lt hxs
      · rw [leerParametros, hlee]
    | some largo =>
      have hcabe := leerInt_cabe hlee
      obtain ⟨-, hint⟩ := leerInt_esInt hlee
      obtain ⟨hlista, hhasta⟩ := anunciadas_succ (n := n) hlee
      rw [hhasta, enteros_succ hlee, hlista, leerParametros, hlee]
      by_cases hpos : 0 < largo
      · simp only [if_pos hpos]
        rw [leerTrozo_casos hxs hcabe hpos.le hint]
        by_cases hlejos : 2 ^ 31 ≤ desde + 4 + largo.toNat
        · rw [if_pos hlejos]
          exact Or.inl ⟨hlejos.trans le_hasta, rfl⟩
        · rw [if_neg hlejos]
          by_cases hfuera : xs.length < desde + 4 + largo.toNat
          · rw [if_pos hfuera, hasta_corto hfuera]
            refine Or.inr (Or.inl ⟨by omega, ?_, rfl⟩)
            rintro ⟨-, hdentro⟩
            rw [hasta_corto hfuera] at hdentro
            omega
          · rw [if_neg hfuera]
            rcases ih (show desde + 4 + largo.toNat ≤ xs.length by omega) with
              ⟨hlejos', hps⟩ | ⟨hcerca, hfalta, hps⟩ | ⟨hcerca, hestan, ps, hps, hlargo, hen⟩
            · refine Or.inl ⟨hlejos', ?_⟩
              rw [Option.bind_eq_bind, Option.bind_some]
              simp only [hps]
              rfl
            · refine Or.inr (Or.inl ⟨hcerca, hfalta, ?_⟩)
              rw [Option.bind_eq_bind, Option.bind_some]
              simp only [hps]
              rfl
            · refine Or.inr (Or.inr ⟨hcerca, hestan,
                some (leerRango xs (desde + 4) largo.toNat) :: ps, ?_, ?_, ?_⟩)
              · rw [Option.bind_eq_bind, Option.bind_some]
                simp only [hps]
                rfl
              · rw [List.length_cons, hlargo]
              · rw [List.forall_mem_cons, ← hen]
                constructor
                · rintro ⟨largo', hlee', -, -, -, hresto⟩
                  obtain rfl := Option.some.inj (hlee.symm.trans hlee')
                  exact ⟨hpos.le, hresto⟩
                · rintro ⟨-, hresto⟩
                  exact ⟨largo, hlee, hpos.le, by omega, rfl, hresto⟩
      · simp only [if_neg hpos]
        have hcero : largo.toNat = 0 := Int.toNat_of_nonpos (not_lt.mp hpos)
        rw [hcero, Nat.add_zero]
        rcases ih hcabe with
          ⟨hlejos', hps⟩ | ⟨hcerca, hfalta, hps⟩ | ⟨hcerca, hestan, ps, hps, hlargo, hen⟩
        · refine Or.inl ⟨hlejos', ?_⟩
          rw [hps]
          rfl
        · refine Or.inr (Or.inl ⟨hcerca, hfalta, ?_⟩)
          rw [hps]
          rfl
        · refine Or.inr (Or.inr ⟨hcerca, hestan, none :: ps, ?_, ?_, ?_⟩)
          · rw [hps]
            rfl
          · rw [List.length_cons, hlargo]
          · rw [List.forall_mem_cons, ← hen]
            constructor
            · rintro ⟨largo', hlee', hno, -, -, hresto⟩
              obtain rfl := Option.some.inj (hlee.symm.trans hlee')
              rw [hcero, Nat.add_zero] at hresto
              exact ⟨hno, hresto⟩
            · rintro ⟨hno, hresto⟩
              refine ⟨largo, hlee, hno, by omega, ?_, ?_⟩
              · rw [hcero]
                rfl
              · rw [hcero, Nat.add_zero]
                exact hresto

end Parametros

section Fetch

theorem fetchSeguro_nulo (h : deserializarInstruccion xs = some none) : FetchSeguro xs :=
  ⟨none, h, fun inst hinst => by cases hinst⟩

theorem not_fetchSeguro (h : deserializarInstruccion xs = none) : ¬ FetchSeguro xs := by
  rintro ⟨r, hr, -⟩
  rw [h] at hr
  cases hr

/-- From the number of parameters on. -/
theorem cantidad_casos (hxs : xs.length < 2 ^ 31) {cantidad : ℤ} (hlee : leerInt xs 0 = some largo)
    (hpos : 0 ≤ largo) (hcabe : 4 + largo.toNat ≤ xs.length)
    (hcantidad : leerInt xs (4 + largo.toNat) = some cantidad) :
    FetchSeguro xs ↔ 0 ≤ cantidad ∧ cantidad ≤ MAX_PARAMETROS ∧
      ParametrosSeguros xs cantidad.toNat (8 + largo.toNat) := by
  have hopcode : leerTrozo xs 4 largo = some (some (leerRango xs 4 largo.toNat)) := by
    rw [leerTrozo_casos hxs (leerInt_cabe hlee) hpos (leerInt_esInt hlee).2, if_neg (by omega),
      if_neg (by omega)]
  have hcuenta := leerInt_cabe hcantidad
  by_cases hmuchos : (MAX_PARAMETROS : ℤ) < cantidad
  · -- the cleaning walks past the array
    have hdes : deserializarInstruccion xs = none := by
      simp only [deserializarInstruccion, hlee, hopcode, hcantidad, if_pos hmuchos,
        destruirInstruccion, Option.bind_eq_bind, Option.bind_some, Option.map_none]
    exact iff_of_false (not_fetchSeguro hdes) fun h => absurd h.2.1 (not_le.mpr hmuchos)
  have hle : cantidad ≤ MAX_PARAMETROS := not_lt.mp hmuchos
  by_cases hneg : cantidad < 0
  · have hdes : deserializarInstruccion xs = none := by
      simp only [deserializarInstruccion, hlee, hopcode, hcantidad, if_neg hmuchos, if_pos hneg,
        Option.bind_eq_bind, Option.bind_some]
    exact iff_of_false (not_fetchSeguro hdes) fun h => absurd h.1 (not_le.mpr hneg)
  have hcero : 0 ≤ cantidad := not_lt.mp hneg
  have hdes : deserializarInstruccion xs =
      (leerParametros xs cantidad.toNat (8 + largo.toNat)).map
        (Option.map fun parametros => ⟨leerRango xs 4 largo.toNat, parametros⟩) := by
    simp only [deserializarInstruccion, hlee, hopcode, hcantidad, if_neg hmuchos, if_neg hneg,
      destruirInstruccion, Option.bind_eq_bind, Option.bind_some, Option.map_some]
    rcases leerParametros xs cantidad.toNat (8 + largo.toNat) with _ | _ | ps <;> rfl
  rcases leerParametros_casos (n := cantidad.toNat) hxs
      (show 8 + largo.toNat ≤ xs.length by omega) with
    ⟨hlejos, hps⟩ | ⟨hcerca, hfalta, hps⟩ | ⟨hcerca, hestan, ps, hps, hlargo, hen⟩
  · rw [hps] at hdes
    exact iff_of_false (not_fetchSeguro hdes) fun h => absurd h.2.2.1 (not_lt.mpr hlejos)
  · rw [hps] at hdes
    exact iff_of_true (fetchSeguro_nulo hdes)
      ⟨hcero, hle, hcerca, fun hestan => absurd hestan hfalta⟩
  · rw [hps] at hdes
    constructor
    · rintro ⟨r, hr, hsegura⟩
      obtain ⟨largo', hlee', -, -, -, -, -, hresto⟩ :=
        hsegura _ (Option.some.inj (hr.symm.trans hdes))
      obtain rfl := Option.some.inj (hlee.symm.trans hlee')
      exact ⟨hcero, hle, hcerca, fun _ => hen.mp hresto⟩
    · intro h
      refine ⟨_, hdes, fun inst hinst => ?_⟩
      cases hinst
      have hnum : (ps.length : ℤ) = cantidad := by omega
      refine ⟨largo, hlee, hpos, by omega, rfl, ?_, ?_, hen.mpr (h.2.2.2 hestan)⟩
      · rw [hnum]
        exact hcantidad
      · exact_mod_cast hnum ▸ hle

end Fetch

/-- `fetch` is safe on a payload exactly when it gets as far as the number of parameters and the
lengths announced are safe. -/
theorem fetch_seguro_iff (xs : List Byte) (hxs : xs.length < 2 ^ 31) :
    FetchSeguro xs ↔ Anuncia xs := by
  cases hlee : leerInt xs 0 with
  | none =>
    have hdes : deserializarInstruccion xs = none := by
      simp only [deserializarInstruccion, hlee, destruirInstruccion, Option.map_none]
    refine iff_of_false (not_fetchSeguro hdes) ?_
    rintro ⟨largo, cantidad, hlargo, -⟩
    cases hlee.symm.trans hlargo
  | some largo =>
    have hanuncia : Anuncia xs ↔ 0 ≤ largo ∧ ∃ cantidad,
        leerInt xs (4 + largo.toNat) = some cantidad ∧ 0 ≤ cantidad ∧
          cantidad ≤ MAX_PARAMETROS ∧
            ParametrosSeguros xs cantidad.toNat (8 + largo.toNat) := by
      constructor
      · rintro ⟨largo', cantidad, hlee', hpos, hresto⟩
        obtain rfl := Option.some.inj (hlee.symm.trans hlee')
        exact ⟨hpos, cantidad, hresto⟩
      · rintro ⟨hpos, cantidad, hresto⟩
        exact ⟨largo, cantidad, hlee, hpos, hresto⟩
    have hcabe := leerInt_cabe hlee
    obtain ⟨hmin, hmax⟩ := leerInt_esInt hlee
    rw [hanuncia]
    by_cases hneg : largo < 0
    · have hdes : deserializarInstruccion xs = none := by
        simp only [deserializarInstruccion, hlee, leerTrozo_negativo hcabe hneg hmin hxs,
          Option.bind_eq_bind, Option.bind_none]
      exact iff_of_false (not_fetchSeguro hdes) fun h => absurd h.1 (not_le.mpr hneg)
    have hpos : 0 ≤ largo := not_lt.mp hneg
    cases hcantidad : leerInt xs (4 + largo.toNat) with
    | none =>
      -- the count of the instruction that is thrown away has not been read
      have hdes : deserializarInstruccion xs = none := by
        simp only [deserializarInstruccion, hlee]
        rcases leerTrozo xs 4 largo with _ | _ | opcode
        · rfl
        · rfl
        · simp only [hcantidad, destruirInstruccion, Option.bind_eq_bind, Option.bind_some,
            Option.map_none]
      refine iff_of_false (not_fetchSeguro hdes) ?_
      rintro ⟨-, cantidad, hno, -⟩
      cases hno
    | some cantidad =>
      have hcuenta := leerInt_cabe hcantidad
      rw [cantidad_casos hxs hlee hpos (by omega) hcantidad]
      constructor
      · exact fun h => ⟨hpos, cantidad, rfl, h⟩
      · rintro ⟨-, cantidad', hcantidad', h⟩
        cases hcantidad'
        exact h

/-- `NOOP` with its terminator and no parameters. -/
theorem fetch_seguro_ejemplo : FetchSeguro [5, 0, 0, 0, 78, 79, 79, 80, 0, 0, 0, 0, 0] := by
  refine (fetch_seguro_iff _ (by decide)).mpr ⟨5, 0, by decide +kernel, by decide,
    by decide +kernel, le_rfl, by decide, by decide, fun _ largo h => ?_⟩
  exact absurd h List.not_mem_nil

/-- An opcode of -1 bytes is asked for; with -1 parameters the array is written before its first
element; with 4, or before the number is known, the cleaning frees what is past its end. -/
theorem fetch_inseguro : ¬ FetchSeguro [255, 255, 255, 255] ∧
    ¬ FetchSeguro [1, 0, 0, 0, 0, 255, 255, 255, 255] ∧
    ¬ FetchSeguro [1, 0, 0, 0, 0, 4, 0, 0, 0] ∧ ¬ FetchSeguro [1, 0, 0, 0, 0] := by
  refine ⟨?_, ?_, ?_, ?_⟩
  · exact not_fetchSeguro (by decide +kernel)
  · exact not_fetchSeguro (by decide +kernel)
  · exact not_fetchSeguro (by decide +kernel)
  · exact not_fetchSeguro (by decide +kernel)

end CpuFetch

import Tpssoo.CpuPrivada

/-!
# The log of a process alone

The accesses that a program logs over its private memory, replayed. A byte of the memory is
the last one that an accepted write put there, and the initial one before any.
-/
namespace CpuBitacora

open EnterosC RangosBytes CpuEstado CpuAccesos CpuInstrucciones CpuCiclo CpuGiros CpuPrivada
  MemoriaEstado MemoriaInstrucciones

variable {cfg : Config} {programa : List Instruccion} {xs xs' xs'' ys : List Byte} {acc : Acceso}
  {r : Resultado} {rs rs' : List Registro} {gs : List Giro}

/-- The accesses of some turns, in order. -/
def bitacora (gs : List Giro) : List Registro := gs.flatMap Giro.accesos

/-- The accesses of a log, one after the other, with the results that it says. -/
inductive Repasa (cfg : Config) : List Byte → List Registro → List Byte → Prop
  | fin (memoria : List Byte) : Repasa cfg memoria [] memoria
  | otro {memoria memoria' memoria'' : List Byte} {acceso : Acceso} {resultado : Resultado}
      {resto : List Registro} (h : accesoPrivado cfg memoria acceso = some (resultado, memoria'))
      (hresto : Repasa cfg memoria' resto memoria'') :
      Repasa cfg memoria ((acceso, resultado) :: resto) memoria''

/-- The byte that a logged access put at an address. -/
def byteEscrito (d : ℕ) : Registro → Option Byte
  | (.write dl datos, .hecho _) =>
    if dl.toNat ≤ d then (datos.take (aInt datos.length).toNat)[d - dl.toNat]? else none
  | _ => none

/-- The byte that the last write over an address put there. -/
def ultimoEscrito (rs : List Registro) (d : ℕ) : Option Byte :=
  rs.reverse.findSome? (byteEscrito d)

section Repaso

theorem Repasa.append (h : Repasa cfg xs rs xs') (h' : Repasa cfg xs' rs' xs'') :
    Repasa cfg xs (rs ++ rs') xs'' := by
  induction h with
  | fin xs => exact h'
  | otro hacc _ ih => exact .otro hacc (ih h')

theorem repasa_partes (h : Repasa cfg xs (rs ++ rs') xs'') :
    ∃ xs', Repasa cfg xs rs xs' ∧ Repasa cfg xs' rs' xs'' := by
  induction rs generalizing xs with
  | nil => exact ⟨xs, .fin xs, h⟩
  | cons r rs ih =>
    cases h with
    | otro hacc hresto =>
      obtain ⟨xs₁, hrs, hrs'⟩ := ih hresto
      exact ⟨xs₁, .otro hacc hrs, hrs'⟩

/-- The machine alone logs what it did. -/
theorem repasa_mantiene (cfg : Config) (programa : List Instruccion) (xs : List Byte) :
    Mantiene (anotada (privada cfg programa)) fun x => Repasa cfg xs x.2 x.1 where
  fetch := by
    rintro ⟨ys, l⟩ pc r s' hs h
    cases h
    exact hs
  acceso := by
    rintro ⟨ys, l⟩ acc r s' hs h
    obtain ⟨⟨r', ys'⟩, hacc, heq⟩ := Option.map_eq_some_iff.mp h
    cases heq
    exact hs.append (.otro hacc (.fin _))
  limpiar := by
    rintro ⟨ys, l⟩ s' hs h
    cases h
    exact hs

theorem repasa_giros {es : List (ℤ × Bool)}
    (h : girar (privada cfg programa) xs es = some (gs, xs')) :
    Repasa cfg xs (bitacora gs) xs' := by
  induction es generalizing xs gs with
  | nil =>
    cases h
    exact .fin _
  | cons e es ih =>
    obtain ⟨pc, pendiente⟩ := e
    obtain ⟨⟨g, xs₁⟩, hg, h⟩ := Option.bind_eq_some_iff.mp h
    obtain ⟨⟨gs', xs₂⟩, hgs, h⟩ := Option.bind_eq_some_iff.mp h
    cases h
    exact (giro_mantiene (repasa_mantiene cfg programa xs) (.fin xs) hg).append (ih hgs)

end Repaso

section Bytes

theorem byte_acceso (h : accesoPrivado cfg xs acc = some (r, xs')) (d : ℕ) :
    xs'[d]? = (byteEscrito d (acc, r)).or xs[d]? := by
  cases acc with
  | read dl tamanio =>
    have hmismo : xs' = xs := by
      rw [accesoPrivado] at h
      split at h
      · cases h
        rfl
      · split at h
        · cases h
          rfl
        · cases h
    rw [hmismo]
    cases r <;> rfl
  | write dl datos =>
    rw [accesoPrivado] at h
    split at h
    · cases h
      rfl
    · next hno =>
        split at h
        · cases h
          have hdentro : dl.toNat ≤ xs.length := by
            rw [not_or, not_not] at hno
            obtain ⟨-, h₀, h₁⟩ := hno
            omega
          rw [getElem?_escribirRango _ hdentro, byteEscrito]
          by_cases hd : dl.toNat ≤ d
          · rw [if_pos hd]
            by_cases hfin : d < dl.toNat + (datos.take (aInt datos.length).toNat).length
            · rw [if_pos ⟨hd, hfin⟩, List.getElem?_eq_getElem (by omega), Option.some_or]
            · have hpasado : (datos.take (aInt datos.length).toNat)[d - dl.toNat]? = none :=
                List.getElem?_eq_none (by omega)
              rw [if_neg fun hsi => hfin hsi.2, hpasado, Option.none_or]
          · rw [if_neg fun hsi => hd hsi.1, if_neg hd, Option.none_or]
        · cases h

/-- Each byte is the last one written, and the one at the start before any. -/
theorem byte_repasa (h : Repasa cfg xs rs xs') (d : ℕ) :
    xs'[d]? = (ultimoEscrito rs d).or xs[d]? := by
  induction h with
  | fin xs => rfl
  | otro hacc _ ih =>
    rw [ih, byte_acceso hacc, ultimoEscrito, ultimoEscrito, List.reverse_cons,
      List.findSome?_append, Option.or_assoc]
    congr 2
    rw [List.findSome?_cons]
    cases byteEscrito d _ <;> rfl

theorem read_privado {dl tamanio : ℤ}
    (h : accesoPrivado cfg xs (.read dl tamanio) = some (.hecho ys, xs')) :
    ys = leerRango xs dl.toNat tamanio.toNat := by
  rw [accesoPrivado] at h
  split at h
  · cases h
  · split at h
    · cases h
      rfl
    · cases h

/-- A read in a log returns the last bytes written before it. -/
theorem lectura_repasa {dl tamanio : ℤ}
    (h : Repasa cfg xs (rs ++ (.read dl tamanio, .hecho ys) :: rs') xs') (k : ℕ) :
    ys[k]? = if k < tamanio.toNat then
      (ultimoEscrito rs (dl.toNat + k)).or xs[dl.toNat + k]? else none := by
  obtain ⟨xs₁, hantes, hdespues⟩ := repasa_partes h
  cases hdespues with
  | otro hacc _ =>
    rw [read_privado hacc, getElem?_leerRango, byte_repasa hantes]

end Bytes

end CpuBitacora

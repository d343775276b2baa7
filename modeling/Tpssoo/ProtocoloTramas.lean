import Tpssoo.Protocolo

/-!
# Packets on a socket

`enviar_paquete` and `recibir_paquete` over a stream that may end anywhere. A `recv` with
`MSG_WAITALL` gives what was asked for, or what is left before the end of the stream; what
it does not fill keeps the bytes that the allocator left there.
-/
namespace ProtocoloTramas

open EnterosC Protocolo

/-- A packet as `crear_paquete` and the calls of `agregar_a_paquete` build it: its size
is an `int`, so the payload has less than 2^31 bytes. -/
structure PaqueteArmado where
  codigo : OpCode
  valores : List (List Byte)
  entra : valores.flatten.length < 2 ^ 31

def PaqueteArmado.paquete (p : PaqueteArmado) : Paquete :=
  p.valores.foldl agregarAPaquete (crearPaquete p.codigo.codigo)

/-- The stream goes out only when there is something in it. -/
def enviarPaquete (p : Paquete) : List Byte :=
  bytesInt p.codigoOperacion ++ bytesInt p.buffer.length ++
    if 0 < aInt p.buffer.length then p.buffer else []

/-- What the allocator left in the three blocks that `recibir_paquete` fills. -/
structure Basura where
  codigo : ℕ → Byte
  size : ℕ → Byte
  stream : ℕ → Byte

structure PaqueteRecibido where
  codigoOperacion : ℤ
  size : ℤ
  stream : List Byte
  deriving DecidableEq, Repr

def recv (flujo : List Byte) (n : ℕ) : List Byte × List Byte := (flujo.take n, flujo.drop n)

/-- A block of `n` bytes after `recibido` was written at its start. -/
def sobre (recibido : List Byte) (n : ℕ) (basura : ℕ → Byte) : List Byte :=
  recibido ++ ((List.range n).drop recibido.length).map basura

def comoInt (bytes : List Byte) : ℤ := aInt (natBytes (bytes.take 4))

/-- A `recv` is taken for complete unless it returned nothing. -/
def recibirPaquete (b : Basura) (flujo : List Byte) : Option PaqueteRecibido × List Byte :=
  let codigo := recv flujo 4
  if codigo.1 = [] then (none, codigo.2)
  else
    let tam := recv codigo.2 4
    if tam.1 = [] then (none, tam.2)
    else
      let size := comoInt (sobre tam.1 4 b.size)
      if 0 < size then
        let datos := recv tam.2 size.toNat
        if datos.1 = [] then (none, datos.2)
        else (some ⟨comoInt (sobre codigo.1 4 b.codigo), size,
          sobre datos.1 size.toNat b.stream⟩, datos.2)
      else (some ⟨comoInt (sobre codigo.1 4 b.codigo), size, []⟩, tam.2)

/-- The results of `k` calls, one after the other. -/
def llamadas (b : ℕ → Basura) : ℕ → ℕ → List Byte → List (Option PaqueteRecibido)
  | _, 0, _ => []
  | i, k + 1, flujo =>
    (recibirPaquete (b i) flujo).1 :: llamadas b (i + 1) k (recibirPaquete (b i) flujo).2

def flujoDe (ps : List PaqueteArmado) : List Byte :=
  ps.flatMap fun p => enviarPaquete p.paquete

/-- The packet as the receiver should see it. -/
def PaqueteArmado.recibido (p : PaqueteArmado) : PaqueteRecibido :=
  ⟨p.codigo.codigo, p.valores.flatten.length, p.valores.flatten⟩

section Armado

variable (p : PaqueteArmado)

theorem agregar_valores (q : Paquete) (valores : List (List Byte)) :
    valores.foldl agregarAPaquete q = { q with buffer := q.buffer ++ valores.flatten } := by
  induction valores generalizing q with
  | nil => simp
  | cons v valores ih =>
    rw [List.foldl_cons, ih]
    simp [agregarAPaquete]

theorem paquete_armado :
    p.paquete = { codigoOperacion := p.codigo.codigo, buffer := p.valores.flatten } :=
  agregar_valores _ _

theorem codigo_lt (c : OpCode) : c.codigo < 2 ^ 31 := by
  cases c <;> decide

theorem comoInt_bytesInt {x : ℤ} (h : EsInt x) : comoInt (bytesInt x) = x := by
  have hlee := leerInt_bytesInt [] [] x
  rw [List.nil_append, List.append_nil] at hlee
  simp only [leerInt, length_bytesInt, List.length_nil, Nat.zero_add, le_refl, if_true,
    List.drop_zero, Option.some.injEq] at hlee
  rw [comoInt, hlee, aInt_eq h]

theorem esInt_nat {n : ℕ} (h : n < 2 ^ 31) : EsInt n := by
  constructor <;> omega

/-- The bytes of a packet: four, four and the payload. -/
theorem enviar_armado :
    enviarPaquete p.paquete =
      bytesInt p.codigo.codigo ++ (bytesInt p.valores.flatten.length ++ p.valores.flatten) := by
  have hlargo : aInt (p.valores.flatten.length : ℤ) = p.valores.flatten.length :=
    aInt_eq (esInt_nat p.entra)
  rw [paquete_armado, enviarPaquete, hlargo, List.append_assoc]
  by_cases h : p.valores.flatten = []
  · simp [h]
  · rw [if_pos]
    exact Int.natCast_pos.mpr (List.length_pos_iff.mpr h)

def PaqueteArmado.largo : ℕ := 8 + p.valores.flatten.length

@[simp] theorem length_enviar : (enviarPaquete p.paquete).length = p.largo := by
  rw [enviar_armado]
  simp only [List.length_append, length_bytesInt, PaqueteArmado.largo]
  omega

end Armado

section Recepcion

variable {b : Basura} {p : PaqueteArmado}

theorem sobre_completo {recibido : List Byte} {n : ℕ} (h : recibido.length = n)
    (basura : ℕ → Byte) : sobre recibido n basura = recibido := by
  subst h
  rw [sobre, List.drop_eq_nil_of_le List.length_range.le, List.map_nil, List.append_nil]

theorem comoInt_sobre {x : ℤ} (h : EsInt x) (basura : ℕ → Byte) :
    comoInt (sobre (bytesInt x) 4 basura) = x := by
  rw [sobre_completo (length_bytesInt x), comoInt_bytesInt h]

/-- The first two fields, once they have arrived whole. -/
theorem recibir_encabezado {c n : ℤ} (hc : EsInt c) (hn : EsInt n) (resto : List Byte) :
    recibirPaquete b (bytesInt c ++ (bytesInt n ++ resto)) =
      if 0 < n then
        if resto.take n.toNat = [] then (none, resto.drop n.toNat)
        else (some ⟨c, n, sobre (resto.take n.toNat) n.toNat b.stream⟩, resto.drop n.toNat)
      else (some ⟨c, n, []⟩, resto) := by
  have hnil : ∀ x : ℤ, bytesInt x ≠ [] := fun x h => by
    have := length_bytesInt x
    rw [h] at this
    cases this
  have htake : ∀ (x : ℤ) (ys : List Byte), (bytesInt x ++ ys).take 4 = bytesInt x :=
    fun x ys => List.take_left' (length_bytesInt x)
  have hdrop : ∀ (x : ℤ) (ys : List Byte), (bytesInt x ++ ys).drop 4 = ys :=
    fun x ys => List.drop_left' (length_bytesInt x)
  simp only [recibirPaquete, recv, htake, hdrop, if_neg (hnil _), comoInt_sobre hc,
    comoInt_sobre hn]

/-- A packet that arrives whole is returned as it was built, and nothing else is read. -/
theorem recibir_entero (resto : List Byte) :
    recibirPaquete b (enviarPaquete p.paquete ++ resto) = (some p.recibido, resto) := by
  have hc : EsInt (p.codigo.codigo : ℤ) := esInt_nat (codigo_lt p.codigo)
  have hn : EsInt (p.valores.flatten.length : ℤ) := esInt_nat p.entra
  rw [enviar_armado, List.append_assoc, List.append_assoc, recibir_encabezado hc hn]
  by_cases hpos : 0 < (p.valores.flatten.length : ℤ)
  · have hne : p.valores.flatten ≠ [] := List.length_pos_iff.mp (Int.natCast_pos.mp hpos)
    rw [if_pos hpos, Int.toNat_natCast, List.take_left, List.drop_left, if_neg hne,
      sobre_completo rfl, PaqueteArmado.recibido]
  · have hnil : p.valores.flatten = [] :=
      List.length_eq_zero_iff.mp (by omega)
    rw [if_neg hpos, PaqueteArmado.recibido, hnil]
    rfl

theorem recibir_sin_tamanio {flujo : List Byte} (h : flujo.length ≤ 4) :
    recibirPaquete b flujo = (none, []) := by
  have hdrop : flujo.drop 4 = [] := List.drop_eq_nil_of_le h
  simp [recibirPaquete, recv, hdrop]

theorem recibir_vacio : recibirPaquete b [] = (none, []) := rfl

theorem corte_codigo {k : ℕ} (hk : k ≤ 4) :
    recibirPaquete b ((enviarPaquete p.paquete).take k) = (none, []) :=
  recibir_sin_tamanio ((List.length_take_le _ _).trans hk)

/-- The size that is read from its first bytes and the leftovers of the allocator. -/
def sizeCortado (b : Basura) (p : PaqueteArmado) (k : ℕ) : ℤ :=
  comoInt (sobre ((bytesInt p.valores.flatten.length).take (k - 4)) 4 b.size)

theorem corte_size {k : ℕ} (h4 : 4 < k) (h8 : k < 8) :
    recibirPaquete b ((enviarPaquete p.paquete).take k) =
      if 0 < sizeCortado b p k then (none, [])
      else (some ⟨p.codigo.codigo, sizeCortado b p k, []⟩, []) := by
  obtain ⟨j, rfl⟩ : ∃ j, k = 4 + j := ⟨k - 4, by omega⟩
  have hc : EsInt (p.codigo.codigo : ℤ) := esInt_nat (codigo_lt p.codigo)
  have hflujo : (enviarPaquete p.paquete).take (4 + j) =
      bytesInt p.codigo.codigo ++ (bytesInt p.valores.flatten.length).take j := by
    rw [enviar_armado, ← length_bytesInt (p.codigo.codigo : ℤ), List.take_length_add_append,
      List.take_append_of_le_length]
    rw [length_bytesInt]
    omega
  have hnil : bytesInt (p.codigo.codigo : ℤ) ≠ [] := List.ne_nil_of_length_pos (by simp)
  have hparte : ((bytesInt (p.valores.flatten.length : ℤ)).take j) ≠ [] :=
    List.ne_nil_of_length_pos (by
      rw [List.length_take, length_bytesInt]
      omega)
  have hcorto : ((bytesInt (p.valores.flatten.length : ℤ)).take j).length ≤ 4 :=
    (List.length_take_le _ _).trans (by omega)
  rw [hflujo, recibirPaquete, sizeCortado, Nat.add_sub_cancel_left]
  simp only [recv, List.take_left' (length_bytesInt (p.codigo.codigo : ℤ)),
    List.drop_left' (length_bytesInt (p.codigo.codigo : ℤ)), List.take_of_length_le hcorto,
    List.drop_eq_nil_of_le hcorto, if_neg hnil, if_neg hparte, comoInt_sobre hc, List.take_nil,
    List.drop_nil, if_true]

theorem corte_datos {k : ℕ} (h8 : 8 ≤ k) (hk : k < p.largo) :
    recibirPaquete b ((enviarPaquete p.paquete).take k) =
      if k = 8 then (none, [])
      else (some ⟨p.codigo.codigo, p.valores.flatten.length,
        sobre (p.valores.flatten.take (k - 8)) p.valores.flatten.length b.stream⟩, []) := by
  obtain ⟨j, rfl⟩ : ∃ j, k = 4 + (4 + j) := ⟨k - 8, by omega⟩
  have hc : EsInt (p.codigo.codigo : ℤ) := esInt_nat (codigo_lt p.codigo)
  have hn : EsInt (p.valores.flatten.length : ℤ) := esInt_nat p.entra
  have hj : j < p.valores.flatten.length := by
    rw [PaqueteArmado.largo] at hk
    omega
  have hflujo : (enviarPaquete p.paquete).take (4 + (4 + j)) =
      bytesInt p.codigo.codigo ++ (bytesInt p.valores.flatten.length ++
        p.valores.flatten.take j) := by
    rw [enviar_armado, ← length_bytesInt (p.codigo.codigo : ℤ), List.take_length_add_append,
      length_bytesInt, ← length_bytesInt (p.valores.flatten.length : ℤ),
      List.take_length_add_append]
  have hcorto : (p.valores.flatten.take j).length ≤ p.valores.flatten.length :=
    List.length_take_le' _ _
  have hpos : 0 < (p.valores.flatten.length : ℤ) := by omega
  rw [hflujo, recibir_encabezado hc hn, if_pos hpos, Int.toNat_natCast,
    List.take_of_length_le hcorto, List.drop_eq_nil_of_le hcorto]
  have hresta : 4 + (4 + j) - 8 = j := by omega
  rw [hresta]
  by_cases h0 : j = 0
  · rw [if_pos (by simp [h0]), if_pos (by omega)]
  · have hne : p.valores.flatten.take j ≠ [] := List.ne_nil_of_length_pos (by
      rw [List.length_take]
      omega)
    rw [if_neg hne, if_neg (by omega)]

/-- The cut leaves `k` bytes of a packet: no more than the operation code, the two first
fields alone, or a part of the size that the leftovers make positive. -/
def CorteLimpio (b : Basura) (p : PaqueteArmado) (k : ℕ) : Prop :=
  k ≤ 4 ∨ k = 8 ∨ k < 8 ∧ 0 < sizeCortado b p k

instance (b : Basura) (p : PaqueteArmado) (k : ℕ) : Decidable (CorteLimpio b p k) :=
  inferInstanceAs (Decidable (_ ∨ _ ∨ _ ∧ _))

theorem corte_limpio {k : ℕ} (hk : k < p.largo) (h : CorteLimpio b p k) :
    recibirPaquete b ((enviarPaquete p.paquete).take k) = (none, []) := by
  by_cases h4 : k ≤ 4
  · exact corte_codigo h4
  · rcases h with h | rfl | ⟨h8, hsize⟩
    · exact absurd h h4
    · rw [corte_datos le_rfl hk, if_pos rfl]
    · rw [corte_size (by omega) h8, if_pos hsize]

theorem corte_sucio {k : ℕ} (hk : k < p.largo) (h : ¬ CorteLimpio b p k) :
    (recibirPaquete b ((enviarPaquete p.paquete).take k)).1.isSome := by
  have h4 : 4 < k := by
    by_contra hle
    exact h (Or.inl (by omega))
  have h8 : k ≠ 8 := fun h8 => h (Or.inr (Or.inl h8))
  by_cases hlt : k < 8
  · have hsize : ¬ 0 < sizeCortado b p k := fun hs => h (Or.inr (Or.inr ⟨hlt, hs⟩))
    rw [corte_size h4 hlt, if_neg hsize]
    rfl
  · rw [corte_datos (by omega) hk, if_neg h8]
    rfl

end Recepcion

section Corte

/-- The packets that lie whole in the first `n` bytes. -/
def enteros : List PaqueteArmado → ℕ → List PaqueteArmado
  | [], _ => []
  | p :: ps, n => if p.largo ≤ n then p :: enteros ps (n - p.largo) else []

/-- The packet in which byte `n` falls, with how many of its bytes are before it. -/
def partido : List PaqueteArmado → ℕ → Option (PaqueteArmado × ℕ)
  | [], _ => none
  | p :: ps, n => if p.largo ≤ n then partido ps (n - p.largo) else some (p, n)

/-- After the whole packets, NULL at every call. -/
def RecibeEnteros (b : ℕ → Basura) (ps : List PaqueteArmado) (n : ℕ) : Prop :=
  ∀ k, llamadas b 0 ((enteros ps n).length + k) ((flujoDe ps).take n) =
    (enteros ps n).map (fun p => some p.recibido) ++ List.replicate k none

/-- The cut, if it is inside a packet, is clean for the call that meets it. -/
def CorteSeguro (b : ℕ → Basura) (ps : List PaqueteArmado) (n : ℕ) : Prop :=
  ∀ q ∈ partido ps n, CorteLimpio (b (enteros ps n).length) q.1 q.2

variable {b : ℕ → Basura}

theorem llamadas_vacio (i k : ℕ) : llamadas b i k [] = List.replicate k none := by
  induction k generalizing i with
  | zero => rfl
  | succ k ih => rw [llamadas, recibir_vacio, ih, List.replicate_succ]

theorem partido_lt {ps : List PaqueteArmado} {n : ℕ} {q : PaqueteArmado × ℕ}
    (h : q ∈ partido ps n) : q.2 < q.1.largo := by
  induction ps generalizing n with
  | nil => cases h
  | cons p ps ih =>
    rw [partido] at h
    split at h
    · exact ih h
    · next hlt =>
        cases h
        exact not_le.mp hlt

/-- The calls before the cut return the whole packets; the others see what is left. -/
theorem llamadas_enteros (ps : List PaqueteArmado) (n i k : ℕ) :
    llamadas b i ((enteros ps n).length + k) ((flujoDe ps).take n) =
      (enteros ps n).map (fun p => some p.recibido) ++
        llamadas b (i + (enteros ps n).length) k
          (((partido ps n).map fun q => (enviarPaquete q.1.paquete).take q.2).getD []) := by
  induction ps generalizing n i with
  | nil =>
    rw [flujoDe, List.flatMap_nil, List.take_nil, enteros, partido]
    simp
  | cons p ps ih =>
    have hflujo : flujoDe (p :: ps) = enviarPaquete p.paquete ++ flujoDe ps :=
      List.flatMap_cons
    by_cases h : p.largo ≤ n
    · have htake : (flujoDe (p :: ps)).take n =
          enviarPaquete p.paquete ++ (flujoDe ps).take (n - p.largo) := by
        rw [hflujo, List.take_append, length_enviar, List.take_of_length_le]
        rwa [length_enviar]
      rw [enteros, partido, if_pos h, if_pos h, htake, List.length_cons, List.map_cons,
        Nat.add_right_comm, llamadas, recibir_entero, ih, Nat.add_right_comm, Nat.add_assoc,
        List.cons_append]
    · have htake : (flujoDe (p :: ps)).take n = (enviarPaquete p.paquete).take n := by
        rw [hflujo, List.take_append_of_le_length]
        rw [length_enviar]
        omega
      rw [enteros, partido, if_neg h, if_neg h, htake]
      simp

/-- `recibir_paquete` tells the end of the stream inside a packet when, and only when, the
cut is clean. -/
theorem tramas_exactas_iff (b : ℕ → Basura) (ps : List PaqueteArmado) (n : ℕ) :
    RecibeEnteros b ps n ↔ CorteSeguro b ps n := by
  have hresto : RecibeEnteros b ps n ↔ ∀ k, llamadas b (enteros ps n).length k
      (((partido ps n).map fun q => (enviarPaquete q.1.paquete).take q.2).getD []) =
        List.replicate k none := by
    refine forall_congr' fun k => ?_
    rw [llamadas_enteros, Nat.zero_add]
    exact List.append_right_inj _
  rw [hresto, CorteSeguro]
  cases hpart : partido ps n with
  | none =>
    constructor
    · intro _ q hq
      cases hq
    · intro _ k
      exact llamadas_vacio _ k
  | some q =>
    have hlt : q.2 < q.1.largo := partido_lt hpart
    constructor
    · intro h q' hq'
      cases hq'
      by_contra hsucio
      have huna := h 1
      have hsome := corte_sucio hlt hsucio
      rw [llamadas, llamadas, List.replicate_one, List.cons.injEq] at huna
      rw [Option.map_some, Option.getD_some] at huna
      rw [huna.1] at hsome
      cases hsome
    · intro h k
      cases k with
      | zero => rfl
      | succ k =>
        rw [llamadas, Option.map_some, Option.getD_some, corte_limpio hlt (h q rfl),
          llamadas_vacio, List.replicate_succ]

/-- One byte of a payload of two is taken for the packet. -/
theorem devuelve_partido :
    ¬ RecibeEnteros (fun _ => ⟨fun _ => 0, fun _ => 0, fun _ => 0⟩)
      [⟨.mensaje, [[1, 2]], by decide⟩] 9 := by
  intro h
  exact absurd (h 1) (by decide)

end Corte

end ProtocoloTramas

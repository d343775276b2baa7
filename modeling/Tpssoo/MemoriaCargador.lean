import Tpssoo.MemoriaInstrucciones

/-!
# What the loader reads

The program that a text file holds, line by line, against the one that the loading loop of
`almacenar_proceso_nuevo` stores. `fgets` reads a line in pieces of 299 characters, and each
piece that is not empty becomes an instruction.
-/
namespace MemoriaCargador

open EnterosC MemoriaEstado MemoriaInstrucciones

section Texto

def lineas (archivo : List Byte) : List (List Byte) := archivo.splitOn SALTO

def palabras (linea : List Byte) : List (List Byte) := (linea.splitOn ESPACIO).filter (· ≠ [])

/-- The first word of a line and its next at most three; a line of spaces has none. -/
def leerLinea (linea : List Byte) : Option (List Byte × List (List Byte)) :=
  match palabras linea with
  | [] => none
  | opcode :: resto => some (opcode, resto.take MAX_PARAMETROS)

def programa (archivo : List Byte) : List (List Byte × List (List Byte)) :=
  (lineas archivo).filterMap leerLinea

end Texto

/-- The opcode and the parameters of an instruction. -/
def contenido (inst : Instruccion) : List Byte × List (List Byte) :=
  (inst.opcode.1, inst.parametros.map Subtype.val)

/-- The loop finishes, and instruction `k` is the one of line `k` among those with some character
other than the space. -/
def CargaBien (archivo : List Byte) : Prop :=
  ∃ instrucciones, cargarInstrucciones archivo = some instrucciones ∧
    instrucciones.map contenido = programa archivo

/-- A line that fits in the buffer and has a word. -/
def LineaNormal (linea : List Byte) : Prop :=
  linea.length ≤ MAX_LINEA ∧ ∃ b ∈ linea, b ≠ ESPACIO

section Palabras

theorem strtok_eq (token xs : List Byte) :
    strtok token xs = ((xs.splitOn ESPACIO).modifyHead (token ++ ·)).filter (· ≠ []) := by
  induction xs generalizing token with
  | nil =>
    rw [strtok, List.splitOn_nil]
    by_cases ht : token = [] <;> simp [ht]
  | cons b bs ih =>
    rw [strtok, List.splitOn_cons_eq_if_modifyHead]
    have hnada : (bs.splitOn ESPACIO).modifyHead (([] : List Byte) ++ ·) = bs.splitOn ESPACIO :=
      congrFun List.modifyHead_id _
    by_cases hb : b = ESPACIO
    · subst hb
      rw [if_pos rfl, if_pos (beq_self_eq_true _), ih, hnada]
      by_cases ht : token = [] <;> simp [ht]
    · rw [if_neg hb, if_neg (by simpa using hb), ih, List.modifyHead_modifyHead]
      congr 2
      funext l
      simp

theorem strtok_palabras (linea : List Byte) : strtok [] linea = palabras linea := by
  rw [strtok_eq, palabras]
  congr 1
  exact congrFun List.modifyHead_id _

theorem leerLinea_eq_none {linea : List Byte} :
    leerLinea linea = none ↔ ∀ b ∈ linea, b = ESPACIO := by
  rw [leerLinea, ← strtok_palabras]
  have hvacia : strtok [] linea = [] ↔ ([] : List Byte) = [] ∧ ∀ b ∈ linea, b = ESPACIO :=
    strtok_eq_nil_iff
  cases hs : strtok [] linea with
  | nil => exact iff_of_true rfl (hvacia.mp hs).2
  | cons opcode resto =>
    refine iff_of_false (by simp) fun h => ?_
    rw [hvacia.mpr ⟨rfl, h⟩] at hs
    cases hs

/-- One buffer: the instruction of the line in it, or the null token. -/
theorem cargarLinea_lee {linea : List Byte} {hl : linea.length ≤ MAX_LINEA}
    {insts : List Instruccion} (h : cargarLinea linea hl = some insts) :
    insts.map contenido = (leerLinea (sinSalto linea)).toList := by
  have htokens : (tokens linea hl).map Subtype.val = palabras (sinSalto linea) := by
    rw [← strtok_palabras, tokens, List.map_pmap, List.pmap_eq_map, List.map_id']
  rw [cargarLinea] at h
  rw [leerLinea, ← htokens]
  split at h
  · next hvacia =>
    cases h
    rw [htokens, hvacia]
    rfl
  · cases ht : tokens linea hl with
    | nil =>
      rw [ht] at h
      cases h
    | cons opcode resto =>
      rw [ht] at h
      cases h
      simp [contenido, List.map_take]

theorem cargarLineas_lee {ls : List (List Byte)} {hls : ∀ l ∈ ls, l.length ≤ MAX_LINEA}
    {insts : List Instruccion} (h : cargarLineas ls hls = some insts) :
    insts.map contenido = (ls.map sinSalto).filterMap leerLinea := by
  induction ls generalizing insts with
  | nil =>
    cases h
    rfl
  | cons l ls ih =>
    obtain ⟨cabeza, hcabeza, h⟩ := Option.bind_eq_some_iff.mp h
    obtain ⟨resto, hresto, h⟩ := Option.bind_eq_some_iff.mp h
    cases h
    rw [List.map_append, cargarLinea_lee hcabeza, ih hresto, List.map_cons]
    cases hl : leerLinea (sinSalto l) with
    | none => simp [hl]
    | some inst => simp [hl]

end Palabras

section Trozos

/-- The pieces of 299 characters in which a line is read. -/
def trozos (linea : List Byte) : List (List Byte) :=
  if linea = [] then [] else linea.take MAX_LINEA :: trozos (linea.drop MAX_LINEA)
termination_by linea.length
decreasing_by
  have := List.length_pos_iff.mpr ‹_›
  rw [List.length_drop, MAX_LINEA]
  omega

theorem trozos_nil : trozos [] = [] := by
  rw [trozos, if_pos rfl]

theorem trozos_corta {linea : List Byte} (h : linea.length ≤ MAX_LINEA) (hne : linea ≠ []) :
    trozos linea = [linea] := by
  rw [trozos, if_neg hne, List.take_of_length_le h, List.drop_of_length_le h, trozos_nil]

theorem trozos_llena {l r : List Byte} (h : l.length = MAX_LINEA) :
    trozos (l ++ r) = l :: trozos r := by
  have hne : l ++ r ≠ [] := by
    intro hvacia
    rw [(List.append_eq_nil_iff.mp hvacia).1] at h
    cases h
  rw [trozos, if_neg hne, List.take_left' h, List.drop_left' h]

theorem sinSalto_cortada {linea : List Byte} (resto : List Byte)
    (h : ∀ b ∈ linea, b ≠ 0 ∧ b ≠ SALTO) : sinSalto (linea ++ SALTO :: resto) = linea := by
  have hcero : ∀ b ∈ linea, (decide (b ≠ 0)) = true := fun b hb => by simpa using (h b hb).1
  have hsalto : ∀ b ∈ linea, (decide (b ≠ SALTO)) = true := fun b hb => by simpa using (h b hb).2
  rw [sinSalto, cadena, List.takeWhile_append_of_pos hcero,
    List.takeWhile_cons_of_pos (by decide), List.takeWhile_append_of_pos hsalto,
    List.takeWhile_cons_of_neg (by decide), List.append_nil]

theorem sinSalto_entera {linea : List Byte} (h : ∀ b ∈ linea, b ≠ 0 ∧ b ≠ SALTO) :
    sinSalto linea = linea := by
  have hcero : cadena linea = linea :=
    List.takeWhile_eq_self_iff.mpr fun b hb => by simpa using (h b hb).1
  rw [sinSalto, hcero]
  exact List.takeWhile_eq_self_iff.mpr fun b hb => by simpa using (h b hb).2

theorem lineas_salto (bs : List Byte) : lineas (SALTO :: bs) = [] :: lineas bs := by
  rw [lineas, List.splitOn_cons_eq_if_modifyHead, if_pos (beq_self_eq_true _), lineas]

theorem lineas_otro {b : Byte} (hb : b ≠ SALTO) (bs : List Byte) :
    lineas (b :: bs) = (lineas bs).modifyHead (List.cons b) := by
  rw [lineas, List.splitOn_cons_eq_if_modifyHead, if_neg (by simpa using hb), lineas]

/-- Reading a file: what is left of the buffers that are not empty is the pieces of its lines. -/
theorem fgets_trozos {linea xs : List Byte} (hl : linea.length < MAX_LINEA)
    (hlinea : ∀ b ∈ linea, b ≠ 0 ∧ b ≠ SALTO) (hxs : ∀ b ∈ xs, b ≠ 0) :
    ((fgets linea xs).map sinSalto).filter (· ≠ []) =
      ((lineas xs).modifyHead (linea ++ ·)).flatMap trozos := by
  induction xs generalizing linea with
  | nil =>
    rw [fgets, lineas, List.splitOn_nil]
    by_cases hvacia : linea = []
    · simp [hvacia, trozos_nil]
    · simp [hvacia, sinSalto_entera hlinea, trozos_corta hl.le hvacia]
  | cons b bs ih =>
    have hbs : ∀ b ∈ bs, b ≠ 0 := fun c hc => hxs c (List.mem_cons_of_mem b hc)
    have hsigue := ih (show ([] : List Byte).length < MAX_LINEA by decide) (by simp) hbs
    have hnada : (lineas bs).modifyHead (([] : List Byte) ++ ·) = lineas bs :=
      congrFun List.modifyHead_id _
    rw [hnada] at hsigue
    rw [fgets]
    by_cases hb : b = SALTO
    · subst hb
      rw [if_pos (Or.inl rfl), lineas_salto, List.map_cons, sinSalto_cortada [] hlinea]
      by_cases hvacia : linea = []
      · subst hvacia
        simpa [trozos_nil] using hsigue
      · simp only [List.filter_cons, decide_not, hvacia, decide_false, Bool.not_false, if_true,
          List.modifyHead_cons, List.append_nil, List.flatMap_cons, trozos_corta hl.le hvacia]
        simpa using hsigue
    · have hcon : ∀ c ∈ linea ++ [b], c ≠ 0 ∧ c ≠ SALTO := by
        intro c hc
        rcases List.mem_append.mp hc with hc | hc
        · exact hlinea c hc
        · rw [List.mem_singleton.mp hc]
          exact ⟨hxs b List.mem_cons_self, hb⟩
      have hcabeza : (lineas (b :: bs)).modifyHead (linea ++ ·) =
          (lineas bs).modifyHead ((linea ++ [b]) ++ ·) := by
        rw [lineas_otro hb, List.modifyHead_modifyHead]
        congr 1
        funext l
        simp
      rw [hcabeza]
      by_cases hllena : linea.length + 1 = MAX_LINEA
      · have hlargo : (linea ++ [b]).length = MAX_LINEA := by simpa using hllena
        rw [if_pos (Or.inr hllena), List.map_cons, sinSalto_entera hcon]
        cases hresto : lineas bs with
        | nil => exact absurd hresto (List.splitOn_ne_nil SALTO bs)
        | cons l ls =>
          rw [hresto] at hsigue
          rw [List.modifyHead_cons, List.flatMap_cons, trozos_llena hlargo, List.cons_append,
            ← List.flatMap_cons, ← hsigue]
          simp
      · rw [if_neg (by simp [hb, hllena])]
        refine ih ?_ hcon hbs
        simp only [List.length_append, List.length_singleton]
        omega

theorem archivo_trozos {archivo : List Byte} (h : ∀ b ∈ archivo, b ≠ 0) :
    ((fgets [] archivo).map sinSalto).filter (· ≠ []) = (lineas archivo).flatMap trozos := by
  rw [fgets_trozos (by decide) (by simp) h]
  congr 1
  exact congrFun List.modifyHead_id _

/-- The loader stores one instruction for each piece, and stops at a piece of spaces. -/
theorem cargaBien_trozos {archivo : List Byte} (h : ∀ b ∈ archivo, b ≠ 0) :
    CargaBien archivo ↔ (∀ t ∈ (lineas archivo).flatMap trozos, leerLinea t ≠ none) ∧
      ((lineas archivo).flatMap trozos).filterMap leerLinea = programa archivo := by
  have htrozos := archivo_trozos h
  have hmem : ∀ t, t ∈ (lineas archivo).flatMap trozos ↔
      t ≠ [] ∧ ∃ l ∈ fgets [] archivo, sinSalto l = t := by
    intro t
    rw [← htrozos, List.mem_filter, List.mem_map, decide_eq_true_eq, and_comm]
  have hfiltra : ((lineas archivo).flatMap trozos).filterMap leerLinea =
      ((fgets [] archivo).map sinSalto).filterMap leerLinea := by
    rw [← htrozos, List.filterMap_filter]
    congr 1
    funext l
    by_cases hl : l = []
    · simp [hl, leerLinea_eq_none.mpr]
    · simp [hl]
  constructor
  · rintro ⟨insts, hcarga, hprograma⟩
    constructor
    · intro t ht hnada
      obtain ⟨hne, l, hl, rfl⟩ := (hmem t).mp ht
      have hnone : cargarInstrucciones archivo = none :=
        cargarInstrucciones_eq_none_iff.mpr ⟨l, hl, hne, leerLinea_eq_none.mp hnada⟩
      rw [hcarga] at hnone
      cases hnone
    · rw [hfiltra, ← cargarLineas_lee hcarga, hprograma]
  · rintro ⟨hpalabra, hprograma⟩
    cases hcarga : cargarInstrucciones archivo with
    | none =>
      obtain ⟨l, hl, hne, hespacios⟩ := cargarInstrucciones_eq_none_iff.mp hcarga
      have hnada := leerLinea_eq_none.mpr hespacios
      exact absurd hnada (hpalabra _ ((hmem _).mpr ⟨hne, l, hl, rfl⟩))
    | some insts =>
      refine ⟨insts, hcarga, ?_⟩
      rw [cargarLineas_lee hcarga, ← hfiltra, hprograma]

end Trozos

section Normales

variable {linea : List Byte} {ls : List (List Byte)}

theorem trozos_normal (h : linea = [] ∨ LineaNormal linea) :
    trozos linea = if linea = [] then [] else [linea] := by
  by_cases hvacia : linea = []
  · rw [if_pos hvacia, hvacia, trozos_nil]
  · rw [if_neg hvacia]
    exact trozos_corta (h.resolve_left hvacia).1 hvacia

/-- A line is read in more pieces than it has instructions, unless it is normal. -/
theorem trozos_de_mas (h : ∀ t ∈ trozos linea, leerLinea t ≠ none) :
    (leerLinea linea).toList.length ≤ (trozos linea).length ∧
      ((trozos linea).length = (leerLinea linea).toList.length →
        linea = [] ∨ LineaNormal linea) := by
  by_cases hvacia : linea = []
  · subst hvacia
    rw [leerLinea_eq_none.mpr (by simp)]
    exact ⟨Nat.zero_le _, fun _ => Or.inl rfl⟩
  · have huno : (leerLinea linea).toList.length ≤ 1 := by
      cases leerLinea linea <;> simp
    have hprimero : 1 ≤ (trozos linea).length := by
      rw [trozos, if_neg hvacia]
      exact Nat.le_add_left 1 _
    refine ⟨huno.trans hprimero, fun hlargo => Or.inr ?_⟩
    by_cases hcorta : linea.length ≤ MAX_LINEA
    · refine ⟨hcorta, ?_⟩
      have hpalabra := h linea (by rw [trozos_corta hcorta hvacia]; exact List.mem_cons_self)
      rw [Ne, leerLinea_eq_none] at hpalabra
      push Not at hpalabra
      exact hpalabra
    · have hsigue : linea.drop MAX_LINEA ≠ [] := by
        rw [Ne, List.drop_eq_nil_iff]
        exact hcorta
      have hdos : 2 ≤ (trozos linea).length := by
        rw [trozos, if_neg hvacia, trozos, if_neg hsigue]
        exact Nat.le_add_left 2 _
      omega

/-- Over the lines of a file the numbers agree only when they agree in each. -/
theorem normales_de_largo (h : ∀ t ∈ ls.flatMap trozos, leerLinea t ≠ none) :
    (ls.filterMap leerLinea).length ≤ (ls.flatMap trozos).length ∧
      ((ls.flatMap trozos).length = (ls.filterMap leerLinea).length →
        ∀ l ∈ ls, l = [] ∨ LineaNormal l) := by
  induction ls with
  | nil => exact ⟨le_rfl, fun _ l hl => absurd hl List.not_mem_nil⟩
  | cons l ls ih =>
    have hl : ∀ t ∈ trozos l, leerLinea t ≠ none := fun t ht =>
      h t (List.mem_flatMap.mpr ⟨l, List.mem_cons_self, ht⟩)
    obtain ⟨hcabeza, hcabeza'⟩ := trozos_de_mas hl
    obtain ⟨hresto, hresto'⟩ := ih fun t ht => by
      obtain ⟨l', hl', ht⟩ := List.mem_flatMap.mp ht
      exact h t (List.mem_flatMap.mpr ⟨l', List.mem_cons_of_mem l hl', ht⟩)
    have hlee : ((l :: ls).filterMap leerLinea).length =
        (leerLinea l).toList.length + (ls.filterMap leerLinea).length := by
      cases hl : leerLinea l with
      | none => simp [hl]
      | some inst => simp [hl, Nat.add_comm]
    have htrozos : ((l :: ls).flatMap trozos).length =
        (trozos l).length + (ls.flatMap trozos).length := by
      rw [List.flatMap_cons, List.length_append]
    rw [hlee, htrozos]
    refine ⟨Nat.add_le_add hcabeza hresto, fun hlargo l' hl' => ?_⟩
    rcases List.mem_cons.mp hl' with rfl | hl'
    · exact hcabeza' (by omega)
    · exact hresto' (by omega) l' hl'

theorem trozos_normales (h : ∀ l ∈ ls, l = [] ∨ LineaNormal l) :
    (∀ t ∈ ls.flatMap trozos, leerLinea t ≠ none) ∧
      (ls.flatMap trozos).filterMap leerLinea = ls.filterMap leerLinea := by
  constructor
  · intro t ht
    obtain ⟨l, hl, ht⟩ := List.mem_flatMap.mp ht
    rw [trozos_normal (h l hl)] at ht
    split at ht
    · cases ht
    · next hvacia =>
      rw [List.mem_singleton.mp ht, Ne, leerLinea_eq_none]
      push Not
      exact ((h l hl).resolve_left hvacia).2
  · induction ls with
    | nil => rfl
    | cons l ls ih =>
      rw [List.flatMap_cons, List.filterMap_append,
        ih fun l' hl' => h l' (List.mem_cons_of_mem l hl'),
        trozos_normal (h l List.mem_cons_self)]
      by_cases hvacia : l = []
      · rw [if_pos hvacia, hvacia, List.filterMap_cons_none (leerLinea_eq_none.mpr (by simp))]
        rfl
      · rw [if_neg hvacia, ← List.filterMap_append]
        rfl

end Normales

/-- The loader reads the program of a file line by line exactly when each line is empty, or has
at most 299 characters and one that is not a space. -/
theorem carga_por_lineas_iff (archivo : List Byte) (h : ∀ b ∈ archivo, b ≠ 0) :
    CargaBien archivo ↔ ∀ l ∈ lineas archivo, l = [] ∨ LineaNormal l := by
  rw [cargaBien_trozos h]
  constructor
  · rintro ⟨hpalabra, hprograma⟩
    refine (normales_de_largo hpalabra).2 ?_
    rw [← programa, ← hprograma]
    exact (List.filterMap_length_eq_length.mpr fun t ht =>
      Option.ne_none_iff_isSome.mp (hpalabra t ht)).symm
  · exact trozos_normales

/-- Two instructions with an empty line between them. -/
theorem carga_por_lineas_ejemplo :
    CargaBien [78, 79, 79, 80, 10, 10, 32, 71, 79, 84, 79, 32, 48] := by
  refine (carga_por_lineas_iff _ (by decide +kernel)).mpr fun l hl => ?_
  have hlineas : lineas [78, 79, 79, 80, 10, 10, 32, 71, 79, 84, 79, 32, 48] =
      [[78, 79, 79, 80], [], [32, 71, 79, 84, 79, 32, 48]] := by decide +kernel
  rw [hlineas] at hl
  simp only [List.mem_cons, List.not_mem_nil, or_false] at hl
  rcases hl with rfl | rfl | rfl
  · exact Or.inr ⟨by decide, 78, by decide, by decide⟩
  · exact Or.inl rfl
  · exact Or.inr ⟨by decide, 71, by decide, by decide⟩

/-- A line with one space has no token to store, and a line of 300 characters is stored as two
instructions. -/
theorem carga_de_otra_forma : cargarInstrucciones [32, 10] = none ∧ ¬ CargaBien [32, 10] ∧
    (cargarInstrucciones (List.replicate 300 65)).map List.length = some 2 ∧
    (programa (List.replicate 300 65)).length = 1 := by
  refine ⟨by decide +kernel, ?_, by decide +kernel, by decide +kernel⟩
  rintro ⟨insts, hcarga, -⟩
  have hnone : cargarInstrucciones [32, 10] = none := by decide +kernel
  rw [hcarga] at hnone
  cases hnone

end MemoriaCargador

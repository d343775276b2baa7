import Tpssoo.MemoriaEstado
import Mathlib.Data.List.TakeWhile

/-!
# Program loader

The loading loop of `almacenar_proceso_nuevo`: `fgets` into a 300-byte buffer, the cut at
the line feed, and `strtok` on blanks. A line whose only characters are blanks makes
`strdup` take a null token, which is modelled as `none`.
-/
namespace MemoriaInstrucciones

open EnterosC MemoriaEstado

def SALTO : Byte := 10

def ESPACIO : Byte := 32

/-- Characters that one `fgets` can take. -/
def MAX_LINEA : ℕ := 299

/-- The successive contents of the buffer; the first argument is what the current call of
`fgets` has taken so far. -/
def fgets : List Byte → List Byte → List (List Byte)
  | linea, [] => if linea = [] then [] else [linea]
  | linea, b :: bs =>
    if b = SALTO ∨ linea.length + 1 = MAX_LINEA then (linea ++ [b]) :: fgets [] bs
    else fgets (linea ++ [b]) bs

/-- The C string in a buffer: what precedes the first null byte. -/
def cadena (xs : List Byte) : List Byte := xs.takeWhile (· ≠ 0)

/-- The line after `strchr` and the cut at the line feed. -/
def sinSalto (linea : List Byte) : List Byte := (cadena linea).takeWhile (· ≠ SALTO)

/-- The tokens of successive `strtok` calls; the first argument is the token being read. -/
def strtok : List Byte → List Byte → List (List Byte)
  | token, [] => if token = [] then [] else [token]
  | token, b :: bs =>
    if b = ESPACIO then (if token = [] then strtok [] bs else token :: strtok [] bs)
    else strtok (token ++ [b]) bs

theorem mem_fgets {linea xs l : List Byte} (hl : linea.length < MAX_LINEA)
    (h : l ∈ fgets linea xs) : l.length ≤ MAX_LINEA := by
  induction xs generalizing linea with
  | nil =>
    unfold fgets at h
    split at h
    · cases h
    · rw [List.mem_singleton.mp h]
      omega
  | cons b bs ih =>
    unfold fgets at h
    split at h
    · rcases List.mem_cons.mp h with rfl | h
      · rw [List.length_append]
        exact hl
      · exact ih (by decide) h
    · rename_i hb
      exact ih (by simp only [List.length_append, List.length_singleton]; omega) h

theorem mem_strtok {token xs tk : List Byte} {n : ℕ} (hn : token.length + xs.length < n)
    (ht : ∀ b ∈ token, b ≠ 0 ∧ b ≠ ESPACIO) (hx : ∀ b ∈ xs, b ≠ 0) (h : tk ∈ strtok token xs) :
    tk ≠ [] ∧ tk.length < n ∧ ∀ b ∈ tk, b ≠ 0 ∧ b ≠ ESPACIO := by
  induction xs generalizing token with
  | nil =>
    unfold strtok at h
    split at h
    · cases h
    · rename_i hne
      rw [List.mem_singleton.mp h]
      exact ⟨hne, by simpa using hn, ht⟩
  | cons b bs ih =>
    have hbs : ∀ c ∈ bs, c ≠ 0 := fun c hc => hx c (List.mem_cons_of_mem b hc)
    simp only [List.length_cons] at hn
    unfold strtok at h
    split at h
    · have hvacio : ∀ c ∈ ([] : List Byte), c ≠ 0 ∧ c ≠ ESPACIO := by simp
      have hn' : ([] : List Byte).length + bs.length < n := by simp; omega
      split at h
      · exact ih hn' hvacio hbs h
      · rename_i hne
        rcases List.mem_cons.mp h with rfl | h
        · exact ⟨hne, by omega, ht⟩
        · exact ih hn' hvacio hbs h
    · rename_i hb
      refine ih (by simp; omega) ?_ hbs h
      intro c hc
      rcases List.mem_append.mp hc with hc | hc
      · exact ht c hc
      · rw [List.mem_singleton.mp hc]
        exact ⟨hx b List.mem_cons_self, hb⟩

theorem length_sinSalto_le (linea : List Byte) : (sinSalto linea).length ≤ linea.length :=
  (List.takeWhile_sublist _).length_le.trans (List.takeWhile_sublist _).length_le

theorem sinSalto_ne_cero (linea : List Byte) : ∀ b ∈ sinSalto linea, b ≠ 0 := by
  intro b hb
  have hc : b ∈ cadena linea := (List.takeWhile_sublist _).subset hb
  simpa using List.mem_takeWhile_imp hc

theorem token_valido {linea tk : List Byte} (hl : linea.length ≤ MAX_LINEA)
    (h : tk ∈ strtok [] (sinSalto linea)) : EsToken tk := by
  have hn : ([] : List Byte).length + (sinSalto linea).length < 300 := by
    have := length_sinSalto_le linea
    unfold MAX_LINEA at hl
    simp only [List.length_nil]
    omega
  exact mem_strtok hn (by simp) (sinSalto_ne_cero linea) h

def tokens (linea : List Byte) (hl : linea.length ≤ MAX_LINEA) : List Token :=
  (strtok [] (sinSalto linea)).pmap Subtype.mk fun _ h => token_valido hl h

/-- One line: skipped when empty, `none` when its first token is null. -/
def cargarLinea (linea : List Byte) (hl : linea.length ≤ MAX_LINEA) : Option (List Instruccion) :=
  if sinSalto linea = [] then some []
  else
    match tokens linea hl with
    | [] => none
    | opcode :: resto =>
      some [⟨opcode, resto.take MAX_PARAMETROS, List.length_take_le _ _⟩]

def cargarLineas : (ls : List (List Byte)) → (∀ l ∈ ls, l.length ≤ MAX_LINEA) →
    Option (List Instruccion)
  | [], _ => some []
  | l :: ls, h => do
    let inst ← cargarLinea l (h l List.mem_cons_self)
    let resto ← cargarLineas ls fun l' hl' => h l' (List.mem_cons_of_mem l hl')
    return inst ++ resto

def cargarInstrucciones (archivo : List Byte) : Option (List Instruccion) :=
  cargarLineas (fgets [] archivo) fun _ hl => mem_fgets (by decide) hl

/-- The loader crashes exactly when some line has characters and all of them are blanks. -/
def LineaSoloBlancos (linea : List Byte) : Prop :=
  sinSalto linea ≠ [] ∧ ∀ b ∈ sinSalto linea, b = ESPACIO

theorem strtok_eq_nil_iff {token xs : List Byte} :
    strtok token xs = [] ↔ token = [] ∧ ∀ b ∈ xs, b = ESPACIO := by
  induction xs generalizing token with
  | nil =>
    unfold strtok
    split <;> simp_all
  | cons b bs ih =>
    unfold strtok
    split
    · rename_i hb
      split
      · rename_i ht
        rw [ih]
        simp [hb, ht]
      · rename_i ht
        simp [ht]
    · rename_i hb
      rw [ih]
      simp [hb]

theorem cargarLinea_eq_none_iff {linea : List Byte} {hl : linea.length ≤ MAX_LINEA} :
    cargarLinea linea hl = none ↔ LineaSoloBlancos linea := by
  have htok : tokens linea hl = [] ↔ ∀ b ∈ sinSalto linea, b = ESPACIO := by
    rw [tokens, List.pmap_eq_nil_iff, strtok_eq_nil_iff]
    simp
  unfold cargarLinea LineaSoloBlancos
  by_cases h : sinSalto linea = []
  · simp [h]
  · rw [if_neg h, ← htok]
    cases ht : tokens linea hl with
    | nil => simp [h]
    | cons op resto => simp

theorem cargarLineas_eq_none_iff {ls : List (List Byte)} {h : ∀ l ∈ ls, l.length ≤ MAX_LINEA} :
    cargarLineas ls h = none ↔ ∃ l ∈ ls, LineaSoloBlancos l := by
  induction ls with
  | nil => simp [cargarLineas]
  | cons l ls ih =>
    have hl := h l List.mem_cons_self
    have hls : ∀ l' ∈ ls, l'.length ≤ MAX_LINEA := fun l' hl' => h l' (List.mem_cons_of_mem l hl')
    have hcab : cargarLinea l hl = none ↔ LineaSoloBlancos l := cargarLinea_eq_none_iff
    have hcola : cargarLineas ls hls = none ↔ ∃ l' ∈ ls, LineaSoloBlancos l' := ih
    rw [List.exists_mem_cons_iff, ← hcab, ← hcola]
    simp only [cargarLineas]
    cases cargarLinea l hl with
    | none => simp
    | some inst =>
      cases cargarLineas ls hls with
      | none => simp
      | some resto => simp

theorem cargarInstrucciones_eq_none_iff {archivo : List Byte} :
    cargarInstrucciones archivo = none ↔ ∃ l ∈ fgets [] archivo, LineaSoloBlancos l :=
  cargarLineas_eq_none_iff

end MemoriaInstrucciones

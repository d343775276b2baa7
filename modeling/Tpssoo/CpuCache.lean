import Tpssoo.CpuEstado

/-!
# Page cache

Lookup, insertion with the two clock algorithms, and the cleaning of the entries of a
process. The loops of the clocks get enough rounds to end, and do.
-/
namespace CpuCache

open EnterosC MemoriaEstado MemoriaPeticiones CpuEstado

variable {cfg : Config} (cpu : Cpu)

def obtenerEntradaCache (c : Cache) (pid pagina : ℤ) : Option ℕ :=
  c.entradas.findIdx? fun e => e.ocupado && e.pid == pid && e.pagina == pagina

def aplicarReemplazoCache (c : Cache) (indice : ℕ) (pid pagina marco : ℤ) (contenido : List Byte)
    (modificado : Bool) : Cache :=
  { c with
    entradas := c.entradas.set indice ⟨true, pid, pagina, contenido, true, modificado, marco⟩ }

/-- The hand clears the use bit of its entry and moves on. -/
def avanzarBajando (c : Cache) (e : EntradaCache) : Cache where
  entradas := c.entradas.set c.puntero { e with bitUso := false }
  puntero := (c.puntero + 1) % c.entradas.length

/-- The loop of CLOCK, for a number of steps of the hand. -/
def buscarVictimaClock : ℕ → Cache → Option (ℕ × Cache)
  | 0, _ => none
  | n + 1, c => do
    let e ← c.entradas[c.puntero]?
    if !e.ocupado then return (c.puntero, c)
    else if !e.bitUso then return (c.puntero, c)
    else buscarVictimaClock n (avanzarBajando c e)

/-- Pass 1.1 of CLOCK-M: the first entry from the hand with both bits clear. -/
def buscarSinUsoSinModificar (c : Cache) : Option ℕ :=
  (List.range c.entradas.length).findSome? fun i =>
    (c.entradas[(c.puntero + i) % c.entradas.length]?).bind fun e =>
      if !e.bitUso && !e.bitModificado then some ((c.puntero + i) % c.entradas.length) else none

/-- Pass 1.2 of CLOCK-M, for a number of steps of the hand. -/
def buscarModificadaBajando : ℕ → Cache → Option ℕ × Cache
  | 0, c => (none, c)
  | n + 1, c =>
    match c.entradas[c.puntero]? with
    | none => (none, c)
    | some e =>
      if !e.bitUso && e.bitModificado then (some c.puntero, c)
      else buscarModificadaBajando n (avanzarBajando c e)

/-- The outer loop of CLOCK-M, for a number of rounds. -/
def buscarVictimaClockM : ℕ → Cache → Option (ℕ × Cache)
  | 0, _ => none
  | n + 1, c =>
    match buscarSinUsoSinModificar c with
    | some victima => some (victima, c)
    | none =>
      match buscarModificadaBajando c.entradas.length c with
      | (some victima, c') => some (victima, c')
      | (none, c') => buscarVictimaClockM n c'

/-- The write-back of an entry that leaves. -/
def escribirModificada (m : Memoria cfg) (e : EntradaCache) (pid : ℤ) : Option (Memoria cfg) :=
  if e.bitModificado then enviarPaginaAMemoriaPrincipal cpu m e.marco e.contenido pid else some m

def seleccionarVictimaCache (c : Cache) (m : Memoria cfg) (pid pagina marco : ℤ)
    (contenido : List Byte) (modificado : Bool) : Option (Cache × Memoria cfg) :=
  match cpu.algoritmoCache with
  | .clock => do
    let (victima, c') ← buscarVictimaClock (c.entradas.length + 1) c
    let e ← c'.entradas[victima]?
    let m' ← if e.ocupado then escribirModificada cpu m e pid else some m
    -- the hand stays at the entry just replaced
    return (aplicarReemplazoCache c' victima pid pagina marco contenido modificado, m')
  | .clockM => do
    let (victima, c') ← buscarVictimaClockM 2 c
    let e ← c'.entradas[victima]?
    let m' ← escribirModificada cpu m e pid
    return ({ aplicarReemplazoCache c' victima pid pagina marco contenido modificado with
      puntero := (victima + 1) % c.entradas.length }, m')
  | .otro => some (c, m)

def insertarEnCache (c : Cache) (m : Memoria cfg) (pid pagina marco : ℤ) (contenido : List Byte)
    (modificado : Bool) : Option (Cache × Memoria cfg) :=
  if c.entradas = [] then some (c, m)
  else
    match c.entradas.findIdx? fun e => !e.ocupado with
    | some i => some (aplicarReemplazoCache c i pid pagina marco contenido modificado, m)
    | none => seleccionarVictimaCache cpu c m pid pagina marco contenido modificado

def entradaLimpia : EntradaCache := ⟨false, -1, -1, [], false, false, -1⟩

/-- The loop of `limpiar_cache_de_proceso`. -/
def limpiarEntradas (pid : ℤ) : List EntradaCache → Memoria cfg →
    Option (List EntradaCache × Memoria cfg)
  | [], m => some ([], m)
  | e :: es, m =>
    if e.ocupado && e.pid == pid then do
      let m' ← escribirModificada cpu m e pid
      let (es', m'') ← limpiarEntradas pid es m'
      return (entradaLimpia :: es', m'')
    else do
      let (es', m') ← limpiarEntradas pid es m
      return (e :: es', m')

def limpiarCacheDeProceso (c : Cache) (m : Memoria cfg) (pid : ℤ) :
    Option (Cache × Memoria cfg) := do
  let (entradas, m') ← limpiarEntradas cpu pid c.entradas m
  return ({ c with entradas := entradas }, m')

section Victimas

variable {c c' : Cache} {n v : ℕ}

/-- An entry without its use bit. -/
def sinUso (e : EntradaCache) : EntradaCache := { e with bitUso := false }

/-- Caches that differ in use bits and in the hand only. -/
def SoloUso (c c' : Cache) : Prop := c'.entradas.map sinUso = c.entradas.map sinUso

theorem soloUso_length (h : SoloUso c c') : c'.entradas.length = c.entradas.length := by
  simpa using congrArg List.length h

theorem soloUso_trans {c'' : Cache} (h : SoloUso c c') (h' : SoloUso c' c'') : SoloUso c c'' :=
  Eq.trans h' h

theorem getElem?_avanzar {e : EntradaCache} (he : c.entradas[c.puntero]? = some e) (j : ℕ) :
    (avanzarBajando c e).entradas[j]? =
      if c.puntero = j then some (sinUso e) else c.entradas[j]? := by
  simp only [avanzarBajando, List.getElem?_set]
  by_cases hj : c.puntero = j
  · have hlt : c.puntero < c.entradas.length := (List.getElem?_eq_some_iff.mp he).1
    subst hj
    simp [hlt, sinUso]
  · simp [hj]

theorem length_avanzar {e : EntradaCache} :
    (avanzarBajando c e).entradas.length = c.entradas.length := by
  simp [avanzarBajando]

theorem soloUso_avanzar {e : EntradaCache} (he : c.entradas[c.puntero]? = some e) :
    SoloUso c (avanzarBajando c e) := by
  apply List.ext_getElem?
  intro j
  rw [List.getElem?_map, List.getElem?_map, getElem?_avanzar he]
  split
  · rename_i hj
    rw [← hj, he]
    rfl
  · rfl

theorem puntero_avanzar {e : EntradaCache} (hp : c.puntero < c.entradas.length) :
    (avanzarBajando c e).puntero < (avanzarBajando c e).entradas.length := by
  rw [length_avanzar]
  exact Nat.mod_lt _ (by omega)

theorem clock_soloUso (h : buscarVictimaClock n c = some (v, c'))
    (hp : c.puntero < c.entradas.length) :
    SoloUso c c' ∧ v < c.entradas.length ∧ c'.puntero < c.entradas.length := by
  induction n generalizing c with
  | zero => cases h
  | succ n ih =>
    have he : c.entradas[c.puntero]? = some c.entradas[c.puntero] := List.getElem?_eq_getElem hp
    rw [buscarVictimaClock, he, Option.bind_eq_bind, Option.bind_some] at h
    generalize c.entradas[c.puntero] = e at he h
    split at h
    · cases h
      exact ⟨rfl, hp, hp⟩
    · split at h
      · cases h
        exact ⟨rfl, hp, hp⟩
      · obtain ⟨hs, hv, hq⟩ := ih h (puntero_avanzar hp)
        rw [length_avanzar] at hv hq
        exact ⟨soloUso_trans (soloUso_avanzar he) hs, hv, hq⟩

/-- The hand stops at the latest at the first entry ahead whose use bit is clear. -/
theorem clock_para {d : ℕ} (hp : c.puntero < c.entradas.length) (hd : d < n)
    (hlibre : ∃ e, c.entradas[(c.puntero + d) % c.entradas.length]? = some e ∧ e.bitUso = false) :
    ∃ r, buscarVictimaClock n c = some r := by
  induction n generalizing c d with
  | zero => omega
  | succ n ih =>
    have he : c.entradas[c.puntero]? = some c.entradas[c.puntero] := List.getElem?_eq_getElem hp
    rw [buscarVictimaClock, he, Option.bind_eq_bind, Option.bind_some]
    generalize c.entradas[c.puntero] = e at he
    split
    · exact ⟨_, rfl⟩
    · split
      · exact ⟨_, rfl⟩
      · rename_i huso
        obtain ⟨x, hx, hxuso⟩ := hlibre
        cases d with
        | zero =>
          rw [Nat.add_zero, Nat.mod_eq_of_lt hp, he] at hx
          cases hx
          simp [hxuso] at huso
        | succ d =>
          apply ih (d := d) (puntero_avanzar hp) (by omega)
          have hpos : ((avanzarBajando c e).puntero + d) % (avanzarBajando c e).entradas.length =
              (c.puntero + (d + 1)) % c.entradas.length := by
            rw [length_avanzar, avanzarBajando, Nat.mod_add_mod]
            congr 1
            omega
          rw [hpos, getElem?_avanzar he]
          by_cases hj : c.puntero = (c.puntero + (d + 1)) % c.entradas.length
          · exact ⟨sinUso e, if_pos hj, rfl⟩
          · exact ⟨x, by rw [if_neg hj, hx], hxuso⟩

/-- One step more than a turn is enough for CLOCK. -/
theorem clock_termina (hp : c.puntero < c.entradas.length) :
    ∃ r, buscarVictimaClock (c.entradas.length + 1) c = some r := by
  have he : c.entradas[c.puntero]? = some c.entradas[c.puntero] := List.getElem?_eq_getElem hp
  rw [buscarVictimaClock, he, Option.bind_eq_bind, Option.bind_some]
  generalize c.entradas[c.puntero] = e at he
  split
  · exact ⟨_, rfl⟩
  · split
    · exact ⟨_, rfl⟩
    · -- after a whole turn the hand is back at the entry it cleared first
      have hvuelta : ((avanzarBajando c e).puntero + (c.entradas.length - 1)) %
          (avanzarBajando c e).entradas.length = c.puntero := by
        have hsuma : c.puntero + 1 + (c.entradas.length - 1) = c.puntero + c.entradas.length := by
          omega
        rw [length_avanzar, avanzarBajando, Nat.mod_add_mod, hsuma, Nat.add_mod_right,
          Nat.mod_eq_of_lt hp]
      apply clock_para (d := c.entradas.length - 1) (puntero_avanzar hp) (by omega)
      rw [hvuelta, getElem?_avanzar he, if_pos rfl]
      exact ⟨_, rfl, rfl⟩

theorem sinUso_cero_lt (h : buscarSinUsoSinModificar c = some v)
    (hp : c.puntero < c.entradas.length) :
    v < c.entradas.length := by
  obtain ⟨i, -, hi⟩ := List.exists_of_findSome?_eq_some h
  obtain ⟨e, -, he⟩ := Option.bind_eq_some_iff.mp hi
  split at he
  · cases he
    exact Nat.mod_lt _ (by omega)
  · cases he

theorem modificada_soloUso {o : Option ℕ} (h : buscarModificadaBajando n c = (o, c'))
    (hp : c.puntero < c.entradas.length) :
    SoloUso c c' ∧ (∀ v, o = some v → v < c.entradas.length) ∧ c'.puntero < c.entradas.length := by
  induction n generalizing c with
  | zero =>
    cases h
    refine ⟨rfl, ?_, hp⟩
    intro v hv
    cases hv
  | succ n ih =>
    have he : c.entradas[c.puntero]? = some c.entradas[c.puntero] := List.getElem?_eq_getElem hp
    rw [buscarModificadaBajando, he] at h
    generalize c.entradas[c.puntero] = e at he h
    dsimp only at h
    split at h
    · cases h
      refine ⟨rfl, ?_, hp⟩
      intro v hv
      cases hv
      exact hp
    · obtain ⟨hs, hv, hq⟩ := ih h (puntero_avanzar hp)
      rw [length_avanzar] at hv hq
      exact ⟨soloUso_trans (soloUso_avanzar he) hs, hv, hq⟩

/-- A pass that finds nothing leaves the entries it went over without use bit. -/
theorem modificada_baja (h : buscarModificadaBajando n c = (none, c'))
    (hp : c.puntero < c.entradas.length) :
    (∀ (j : ℕ) (e : EntradaCache), c'.entradas[j]? = some e →
      (∃ x, c.entradas[j]? = some x ∧ x.bitUso = false) → e.bitUso = false) ∧
    ∀ i < n, ∀ e, c'.entradas[(c.puntero + i) % c.entradas.length]? = some e →
      e.bitUso = false := by
  induction n generalizing c with
  | zero =>
    cases h
    refine ⟨?_, by omega⟩
    rintro j e hj ⟨x, hx, huso⟩
    rw [hj] at hx
    cases hx
    exact huso
  | succ n ih =>
    have he : c.entradas[c.puntero]? = some c.entradas[c.puntero] := List.getElem?_eq_getElem hp
    rw [buscarModificadaBajando, he] at h
    generalize c.entradas[c.puntero] = e at he h
    dsimp only at h
    split at h
    · cases h
    · obtain ⟨hmantiene, hbaja⟩ := ih h (puntero_avanzar hp)
      constructor
      · rintro j y hj ⟨x, hx, huso⟩
        apply hmantiene j y hj
        rw [getElem?_avanzar he]
        by_cases hpj : c.puntero = j
        · exact ⟨sinUso e, if_pos hpj, rfl⟩
        · exact ⟨x, by rw [if_neg hpj, hx], huso⟩
      · intro i hi y hy
        cases i with
        | zero =>
          rw [Nat.add_zero, Nat.mod_eq_of_lt hp] at hy
          apply hmantiene _ y hy
          exact ⟨sinUso e, by rw [getElem?_avanzar he, if_pos rfl], rfl⟩
        | succ i =>
          apply hbaja i (by omega)
          have hpos : ((avanzarBajando c e).puntero + i) % (avanzarBajando c e).entradas.length =
              (c.puntero + (i + 1)) % c.entradas.length := by
            rw [length_avanzar, avanzarBajando, Nat.mod_add_mod]
            congr 1
            omega
          rw [hpos]
          exact hy

/-- After a whole pass that finds nothing no entry has its use bit. -/
theorem modificada_baja_todas (h : buscarModificadaBajando c.entradas.length c = (none, c'))
    (hp : c.puntero < c.entradas.length) {j : ℕ} {e : EntradaCache}
    (hj : c'.entradas[j]? = some e) : e.bitUso = false := by
  have hlt : j < c.entradas.length := by
    rw [← soloUso_length (modificada_soloUso h hp).1]
    exact (List.getElem?_eq_some_iff.mp hj).1
  apply (modificada_baja h hp).2 ((j + c.entradas.length - c.puntero) % c.entradas.length)
    (Nat.mod_lt _ (by omega))
  rw [Nat.add_mod_mod]
  have hsuma : c.puntero + (j + c.entradas.length - c.puntero) = j + c.entradas.length := by omega
  rw [hsuma, Nat.add_mod_right, Nat.mod_eq_of_lt hlt]
  exact hj

theorem clockM_soloUso (h : buscarVictimaClockM n c = some (v, c'))
    (hp : c.puntero < c.entradas.length) :
    SoloUso c c' ∧ v < c.entradas.length := by
  induction n generalizing c with
  | zero => cases h
  | succ n ih =>
    rw [buscarVictimaClockM] at h
    cases h₁ : buscarSinUsoSinModificar c with
    | some w =>
      rw [h₁] at h
      cases h
      exact ⟨rfl, sinUso_cero_lt h₁ hp⟩
    | none =>
      rw [h₁] at h
      dsimp only at h
      cases h₂ : buscarModificadaBajando c.entradas.length c with
      | mk o c₁ =>
        obtain ⟨hs, hv, hq⟩ := modificada_soloUso h₂ hp
        rw [h₂] at h
        cases o with
        | some w =>
          cases h
          exact ⟨hs, hv _ rfl⟩
        | none =>
          have hlen := soloUso_length hs
          obtain ⟨hs', hv'⟩ := ih h (by omega)
          exact ⟨soloUso_trans hs hs', by omega⟩

/-- Two rounds are enough for CLOCK-M. -/
theorem clockM_termina (hp : c.puntero < c.entradas.length) :
    ∃ r, buscarVictimaClockM 2 c = some r := by
  rw [buscarVictimaClockM]
  cases h₁ : buscarSinUsoSinModificar c with
  | some w => exact ⟨_, rfl⟩
  | none =>
    dsimp only
    cases h₂ : buscarModificadaBajando c.entradas.length c with
    | mk o c₁ =>
      cases o with
      | some w => exact ⟨_, rfl⟩
      | none =>
        obtain ⟨hs, -, hq⟩ := modificada_soloUso h₂ hp
        have hlen := soloUso_length hs
        have hq' : c₁.puntero < c₁.entradas.length := by omega
        have hbajas : ∀ (j : ℕ) (e : EntradaCache), c₁.entradas[j]? = some e →
            e.bitUso = false := by
          intro j e hj
          exact modificada_baja_todas h₂ hp hj
        dsimp only
        rw [buscarVictimaClockM]
        cases h₃ : buscarSinUsoSinModificar c₁ with
        | some w => exact ⟨_, rfl⟩
        | none =>
          -- every entry is (0, 1), the one under the hand first
          have he : c₁.entradas[c₁.puntero]? = some c₁.entradas[c₁.puntero] :=
            List.getElem?_eq_getElem hq'
          have huso := hbajas _ _ he
          have hcero := List.findSome?_eq_none_iff.mp h₃ 0 (List.mem_range.mpr (by omega))
          rw [Nat.add_zero, Nat.mod_eq_of_lt hq', he, Option.bind_some] at hcero
          have hmod : c₁.entradas[c₁.puntero].bitModificado = true := by
            by_contra hm
            simp [huso, hm] at hcero
          obtain ⟨k, hk⟩ : ∃ k, c₁.entradas.length = k + 1 := ⟨c₁.entradas.length - 1, by omega⟩
          dsimp only
          rw [hk, buscarModificadaBajando, he]
          simp [huso, hmod]

end Victimas

end CpuCache

import Tpssoo.CpuCacheClockM
import Tpssoo.SegundaOportunidad
import Tpssoo.Tartamudeo

/-!
# CLOCK and the second-chance clock

`seleccionar_victima_cache` leaves the hand at the page it has just put in place, so the next
replacement starts by clearing the use bit of that page. A page owes its use bit from then
until it is used again: the textbook clock still has it set.
-/
namespace CpuCacheClock

open EnterosC MemoriaEstado MemoriaPeticiones CpuEstado CpuCache CpuCacheClockM ListaCircular
  SegundaOportunidad Tartamudeo

variable {cfg : Config}

/-- A hit of READ or WRITE, or the insertion of a page that has just missed. -/
inductive OpCache where
  | leer (pid pagina : ℤ)
  | escribir (pid pagina : ℤ) (contenido : List Byte)
  | insertar (pid pagina marco : ℤ) (contenido : List Byte) (modificado : Bool)
  deriving DecidableEq, Repr

def clave (e : EntradaCache) : ℤ × ℤ := (e.pid, e.pagina)

def claves (c : Cache) : List (ℤ × ℤ) := (c.entradas.filter fun e => e.ocupado).map clave

/-- The pages that are no longer in the cache. -/
def desalojadas (c c' : Cache) : List (ℤ × ℤ) := (claves c).filter fun k => k ∉ claves c'

/-- A cache with the victims so far. `cargada` and `deudas` are not in the code: the page that
the last replacement loaded, and those that an earlier one loaded and that have not been used
since the replacement after it. -/
structure Corrida (cfg : Config) where
  cache : Cache
  memoria : Memoria cfg
  victimas : List (ℤ × ℤ)
  cargada : Option (ℤ × ℤ)
  deudas : List (ℤ × ℤ)

def inicioCorrida (n : ℕ) (m : Memoria cfg) : Corrida cfg :=
  ⟨⟨List.replicate n entradaLimpia, 0⟩, m, [], none, []⟩

def llena (c : Cache) : Bool := c.entradas.all fun e => e.ocupado

/-- A hit, which does `f` to its entry. -/
def golpear (s : Corrida cfg) (pid pagina : ℤ) (f : EntradaCache → EntradaCache) :
    Option (Corrida cfg) := do
  let i ← obtenerEntradaCache s.cache pid pagina
  let e ← s.cache.entradas[i]?
  return { s with
    cache := { s.cache with entradas := s.cache.entradas.set i (f e) }
    deudas := s.deudas.filter fun k => k ≠ (pid, pagina) }

def pasoCache (cpu : Cpu) : OpCache → Corrida cfg → Option (Corrida cfg)
  | .leer pid pagina, s => golpear s pid pagina fun e => { e with bitUso := true }
  | .escribir pid pagina contenido, s =>
    golpear s pid pagina fun e =>
      { e with contenido := contenido, bitModificado := true, bitUso := true }
  | .insertar pid pagina marco contenido modificado, s =>
    if obtenerEntradaCache s.cache pid pagina = none then do
      let (c', m') ← insertarEnCache cpu s.cache s.memoria pid pagina marco contenido modificado
      let s' := { s with
        cache := c', memoria := m', victimas := s.victimas ++ desalojadas s.cache c' }
      if llena s.cache then
        return { s' with
          cargada := some (pid, pagina)
          deudas := (s.cargada.toList ++ s.deudas).filter fun k => k ≠ (pid, pagina) }
      else return s'
    else none

def opDe : OpCache → Op (ℤ × ℤ)
  | .leer pid pagina | .escribir pid pagina _ => .golpe (pid, pagina)
  | .insertar pid pagina _ _ _ => .carga (pid, pagina)

/-- The first entry without use bit after the one under the hand. -/
def primeraSinUso (c : Cache) : Option EntradaCache :=
  (desdePuntero c).tail.find? fun e => !e.bitUso

/-- A replacement after another finds an entry without use bit besides that of the hand, and
the first such owes none; or there is one entry only. -/
def saldada (s : Corrida cfg) : OpCache → Bool
  | .insertar _ _ _ _ _ =>
    s.cargada.isNone || decide (s.cache.entradas.length ≤ 1) ||
      (primeraSinUso s.cache).any fun e => clave e ∉ s.deudas
  | _ => true

def Saldada (op : OpCache) (s : Corrida cfg) : Prop := saldada s op = true

instance (op : OpCache) (s : Corrida cfg) : Decidable (Saldada op s) :=
  inferInstanceAs (Decidable (_ = true))

section Vistas

variable {cpu : Cpu} {c c' : Cache} {m m' : Memoria cfg} {us zs : List EntradaCache}
  {e : EntradaCache} {n : ℕ} {k : ℤ × ℤ}

/-- The hand goes over entries that are in use. -/
theorem clock_gira (hp : c.puntero < c.entradas.length) (hvista : desdePuntero c = us ++ zs)
    (hus : ∀ u ∈ us, u.ocupado = true ∧ u.bitUso = true) :
    ∃ c₁, buscarVictimaClock (us.length + n) c = buscarVictimaClock n c₁ ∧
      desdePuntero c₁ = zs ++ us.map sinUso ∧ c₁.puntero < c₁.entradas.length ∧
      c₁.entradas.length = c.entradas.length := by
  induction us generalizing c zs with
  | nil =>
    refine ⟨c, ?_, ?_, hp, rfl⟩
    · rw [List.length_nil, Nat.zero_add]
    · rw [hvista, List.nil_append, List.map_nil, List.append_nil]
  | cons u us ih =>
    obtain ⟨hoc, huso⟩ := hus u List.mem_cons_self
    have hcabeza := rotate_cons hp
    rw [← desdePuntero, hvista, List.cons_append, List.cons.injEq] at hcabeza
    have hu : c.entradas[c.puntero]? = some u := by
      rw [List.getElem?_eq_getElem hp, hcabeza.1]
    have hvista' : desdePuntero (avanzarBajando c u) = us ++ (zs ++ [sinUso u]) := by
      have hrot := rotate_set_siguiente (x := sinUso u) hp
      rw [← desdePuntero, hvista, List.cons_append, List.tail_cons, List.append_assoc] at hrot
      exact hrot
    obtain ⟨c₁, hbusca, hfin, hp₁, hlen⟩ := ih (puntero_avanzar hp) hvista'
      fun v hv => hus v (List.mem_cons_of_mem _ hv)
    refine ⟨c₁, ?_, ?_, hp₁, hlen.trans length_avanzar⟩
    · have hsuma : (u :: us).length + n = us.length + n + 1 := by
        rw [List.length_cons]
        omega
      rw [hsuma, buscarVictimaClock, hu, ← hbusca]
      simp [hoc, huso]
    · rw [hfin, List.append_assoc]
      rfl

theorem clock_elige (hp : c.puntero < c.entradas.length) (hvista : desdePuntero c = e :: zs)
    (huso : e.bitUso = false) : buscarVictimaClock (n + 1) c = some (c.puntero, c) := by
  have hcabeza := rotate_cons hp
  rw [← desdePuntero, hvista, List.cons.injEq] at hcabeza
  rw [buscarVictimaClock, List.getElem?_eq_getElem hp, ← hcabeza.1]
  cases hoc : e.ocupado <;> simp [hoc, huso]

/-- The entry in which CLOCK stops is the one that the new page takes, and the hand stays. -/
theorem clock_reemplaza (halg : cpu.algoritmoCache = .clock) {c₁ : Cache} (nueva : EntradaCache)
    (hllena : ∀ e ∈ c.entradas, e.ocupado = true) (hne : c.entradas ≠ [])
    (hbusca : buscarVictimaClock (c.entradas.length + 1) c = some (c₁.puntero, c₁))
    (hp₁ : c₁.puntero < c₁.entradas.length) (hvista : desdePuntero c₁ = e :: zs)
    (h : insertarEnCache cpu c m nueva.pid nueva.pagina nueva.marco nueva.contenido
      nueva.bitModificado = some (c', m')) :
    desdePuntero c' = { nueva with ocupado := true, bitUso := true } :: zs ∧
      c'.puntero = c₁.puntero ∧ c'.entradas.length = c₁.entradas.length := by
  have hsinLibre : c.entradas.findIdx? (fun e => !e.ocupado) = none := by
    rw [List.findIdx?_eq_none_iff]
    intro x hx
    rw [hllena x hx]
    rfl
  rw [insertarEnCache, if_neg hne, hsinLibre, seleccionarVictimaCache, halg] at h
  simp only [hbusca, List.getElem?_eq_getElem hp₁, Option.bind_eq_bind, Option.bind_some,
    Option.pure_def] at h
  have hfin : c' = aplicarReemplazoCache c₁ c₁.puntero nueva.pid nueva.pagina nueva.marco
      nueva.contenido nueva.bitModificado := by
    split at h
    · obtain ⟨m₁, -, hm⟩ := Option.bind_eq_some_iff.mp h
      cases hm
      rfl
    · cases h
      rfl
  subst hfin
  refine ⟨?_, rfl, List.length_set⟩
  have hrot := rotate_set hp₁ (x := ({ nueva with ocupado := true, bitUso := true } : EntradaCache))
  rw [← desdePuntero, hvista, List.tail_cons] at hrot
  exact hrot

theorem insertar_primera (halg : cpu.algoritmoCache = .clock) (hp : c.puntero < c.entradas.length)
    (nueva : EntradaCache) (hllena : ∀ e ∈ c.entradas, e.ocupado = true)
    (hvista : desdePuntero c = us ++ e :: zs) (hus : ∀ u ∈ us, u.bitUso = true)
    (huso : e.bitUso = false)
    (h : insertarEnCache cpu c m nueva.pid nueva.pagina nueva.marco nueva.contenido
      nueva.bitModificado = some (c', m')) :
    desdePuntero c' = { nueva with ocupado := true, bitUso := true } :: (zs ++ us.map sinUso) ∧
      c'.puntero < c'.entradas.length ∧ c'.entradas.length = c.entradas.length := by
  have hne : c.entradas ≠ [] := List.ne_nil_of_length_pos (Nat.zero_lt_of_lt hp)
  have hlen : us.length + (zs.length + 1) = c.entradas.length := by
    rw [← List.length_rotate c.entradas c.puntero, ← desdePuntero, hvista, List.length_append,
      List.length_cons]
  have hocupada : ∀ x ∈ desdePuntero c, x.ocupado = true :=
    fun x hx => hllena x (List.mem_rotate.mp hx)
  obtain ⟨c₁, hgira, hvista₁, hp₁, hlen₁⟩ := clock_gira (n := zs.length + 1 + 1) hp hvista
    fun u hu => ⟨hocupada u (hvista ▸ List.mem_append_left _ hu), hus u hu⟩
  have hbusca : buscarVictimaClock (c.entradas.length + 1) c = some (c₁.puntero, c₁) := by
    rw [← hlen, Nat.add_assoc, hgira]
    exact clock_elige hp₁ hvista₁ huso
  obtain ⟨hfin, hpuntero, hlargo⟩ := clock_reemplaza halg nueva hllena hne hbusca hp₁ hvista₁ h
  refine ⟨hfin, ?_, hlargo.trans hlen₁⟩
  rw [hpuntero, hlargo]
  exact hp₁

/-- When every entry is in use the hand goes around and the new page takes the first. -/
theorem insertar_vuelta (halg : cpu.algoritmoCache = .clock) (hp : c.puntero < c.entradas.length)
    (nueva : EntradaCache) (hllena : ∀ e ∈ c.entradas, e.ocupado = true)
    (hvista : desdePuntero c = e :: us) (hus : ∀ u ∈ e :: us, u.bitUso = true)
    (h : insertarEnCache cpu c m nueva.pid nueva.pagina nueva.marco nueva.contenido
      nueva.bitModificado = some (c', m')) :
    desdePuntero c' = { nueva with ocupado := true, bitUso := true } :: us.map sinUso ∧
      c'.puntero < c'.entradas.length ∧ c'.entradas.length = c.entradas.length := by
  have hne : c.entradas ≠ [] := List.ne_nil_of_length_pos (Nat.zero_lt_of_lt hp)
  have hlen : (e :: us).length = c.entradas.length := by
    rw [← List.length_rotate c.entradas c.puntero, ← desdePuntero, hvista]
  have hocupada : ∀ x ∈ desdePuntero c, x.ocupado = true :=
    fun x hx => hllena x (List.mem_rotate.mp hx)
  have hvista₀ : desdePuntero c = (e :: us) ++ [] := by rw [hvista, List.append_nil]
  obtain ⟨c₁, hgira, hvista₁, hp₁, hlen₁⟩ := clock_gira (n := 1) hp hvista₀
    fun u hu => ⟨hocupada u (hvista ▸ hu), hus u hu⟩
  rw [List.nil_append, List.map_cons] at hvista₁
  have hbusca : buscarVictimaClock (c.entradas.length + 1) c = some (c₁.puntero, c₁) := by
    rw [← hlen, hgira]
    exact clock_elige hp₁ hvista₁ rfl
  obtain ⟨hfin, hpuntero, hlargo⟩ := clock_reemplaza halg nueva hllena hne hbusca hp₁ hvista₁ h
  refine ⟨hfin, ?_, hlargo.trans hlen₁⟩
  rw [hpuntero, hlargo]
  exact hp₁

theorem claves_perm (hllena : ∀ e ∈ c.entradas, e.ocupado = true) :
    (claves c).Perm ((desdePuntero c).map clave) := by
  have htodas : c.entradas.filter (fun e => e.ocupado) = c.entradas :=
    List.filter_eq_self.mpr hllena
  rw [claves, htodas]
  exact ((List.rotate_perm _ _).symm.map _)

theorem desalojada_unica (hnodup : (claves c).Nodup) (hk : k ∈ claves c)
    (hiff : ∀ k' ∈ claves c, k' ∈ claves c' ↔ k' ≠ k) : desalojadas c c' = [k] := by
  have hfiltro : desalojadas c c' = (claves c).filter fun k' => k' = k := by
    refine List.filter_congr fun k' hk' => ?_
    exact decide_eq_decide.mpr ((not_congr (hiff k' hk')).trans not_not)
  rw [hfiltro, List.filter_eq, List.count_eq_one_of_mem hnodup hk]
  rfl

/-- The page that a full cache loses when its entries are those of `xs` and `e`, and then those
of `xs` and a new one. -/
theorem desalojada_vista {xs : List EntradaCache} {nueva : EntradaCache}
    (hllena : ∀ e ∈ c.entradas, e.ocupado = true) (hllena' : ∀ e ∈ c'.entradas, e.ocupado = true)
    (hnodup : (claves c).Nodup) (hfalta : clave nueva ∉ claves c)
    (hvista : ((desdePuntero c).map clave).Perm (clave e :: xs.map clave))
    (hvista' : ((desdePuntero c').map clave).Perm (clave nueva :: xs.map clave)) :
    desalojadas c c' = [clave e] ∧ (claves c').Nodup := by
  have hperm := (claves_perm hllena).trans hvista
  have hperm' := (claves_perm hllena').trans hvista'
  have hnodup₁ := List.nodup_cons.mp (hperm.nodup_iff.mp hnodup)
  constructor
  · refine desalojada_unica hnodup (hperm.mem_iff.mpr List.mem_cons_self) fun k hk => ?_
    rw [hperm'.mem_iff, List.mem_cons]
    constructor
    · intro hmem heq
      rcases hmem with hnueva | hmem
      · exact hfalta (hnueva ▸ hk)
      · exact hnodup₁.1 (heq ▸ hmem)
    · intro hne
      rcases List.mem_cons.mp (hperm.mem_iff.mp hk) with rfl | hmem
      · exact absurd rfl hne
      · exact Or.inr hmem
  · refine hperm'.nodup_iff.mpr (List.nodup_cons.mpr ⟨fun hmem => ?_, hnodup₁.2⟩)
    exact hfalta (hperm.mem_iff.mpr (List.mem_cons_of_mem _ hmem))

end Vistas

section Golpes

variable {c : Cache} {s s' : Corrida cfg} {pid pagina : ℤ} {f : EntradaCache → EntradaCache}
  {e : EntradaCache} {i : ℕ} {k : ℤ × ℤ}

theorem set_primera {α : Type*} {l : List α} {p : α → Bool} {g : α → α} {i : ℕ} {x : α}
    (hi : l.findIdx? p = some i) (hx : l[i]? = some x) (huna : (l.filter p).length ≤ 1) :
    l.set i (g x) = l.map fun y => if p y then g y else y := by
  induction l generalizing i with
  | nil => cases hx
  | cons y ys ih =>
    rw [List.findIdx?_cons] at hi
    cases hp : p y with
    | true =>
      rw [hp, if_pos rfl] at hi
      cases hi
      cases hx
      have hno : ∀ z ∈ ys, p z = false := by
        intro z hz
        by_contra hpz
        rw [List.filter_cons_of_pos hp, List.length_cons] at huna
        have hmem : z ∈ ys.filter p := List.mem_filter.mpr ⟨hz, Bool.eq_true_of_not_eq_false hpz⟩
        have hpos := List.length_pos_of_mem hmem
        omega
      rw [List.map_cons, hp, if_pos rfl, List.set_cons_zero]
      congr 1
      conv_lhs => rw [← List.map_id ys]
      refine List.map_congr_left fun z hz => ?_
      rw [hno z hz]
      rfl
    | false =>
      rw [hp, if_neg Bool.false_ne_true] at hi
      obtain ⟨j, hj, rfl⟩ := Option.map_eq_some_iff.mp hi
      rw [List.filter_cons_of_neg (by rw [hp]; exact Bool.false_ne_true)] at huna
      rw [List.map_cons, hp, if_neg Bool.false_ne_true, List.set_cons_succ, ih hj hx huna]

def tiene (k : ℤ × ℤ) (e : EntradaCache) : Bool := e.ocupado && e.pid == k.1 && e.pagina == k.2

theorem tiene_iff : tiene k e = true ↔ e.ocupado = true ∧ clave e = k := by
  rw [tiene, clave, Bool.and_eq_true, Bool.and_eq_true, beq_iff_eq, beq_iff_eq, and_assoc,
    Prod.ext_iff]

theorem una_con_clave (hnodup : (claves c).Nodup) : (c.entradas.filter (tiene k)).length ≤ 1 := by
  have hcuenta := List.nodup_iff_count_le_one.mp hnodup k
  rw [claves, List.count_eq_countP, List.countP_map, List.countP_filter] at hcuenta
  rw [← List.countP_eq_length_filter]
  refine le_trans (List.countP_mono_left fun e _ he => ?_) hcuenta
  obtain ⟨hocupada, hclave⟩ := tiene_iff.mp he
  rw [Function.comp_apply, hclave, hocupada, beq_self_eq_true]
  rfl

/-- What a hit does to an entry. -/
def golpeada (k : ℤ × ℤ) (f : EntradaCache → EntradaCache) (e : EntradaCache) : EntradaCache :=
  if tiene k e then f e else e

theorem golpear_vista (hnodup : (claves s.cache).Nodup)
    (h : golpear s pid pagina f = some s') :
    s'.cache.entradas = s.cache.entradas.map (golpeada (pid, pagina) f) ∧
      s'.cache.puntero = s.cache.puntero ∧ s'.victimas = s.victimas ∧ s'.cargada = s.cargada ∧
      s'.deudas = s.deudas.filter fun k => k ≠ (pid, pagina) := by
  rw [golpear] at h
  obtain ⟨i, hi, h⟩ := Option.bind_eq_some_iff.mp h
  obtain ⟨e, he, h⟩ := Option.bind_eq_some_iff.mp h
  cases h
  refine ⟨?_, rfl, rfl, rfl, rfl⟩
  exact set_primera hi he (una_con_clave hnodup)

theorem falta_clave (h : obtenerEntradaCache c pid pagina = none) : (pid, pagina) ∉ claves c := by
  intro hmem
  obtain ⟨e, he, hclave⟩ := List.mem_map.mp hmem
  obtain ⟨hentrada, hocupada⟩ := List.mem_filter.mp he
  have hno := List.findIdx?_eq_none_iff.mp h e hentrada
  have hsi : tiene (pid, pagina) e = true := tiene_iff.mpr ⟨hocupada, hclave⟩
  rw [tiene, hno] at hsi
  cases hsi

end Golpes

section Correspondencia

variable {cpu : Cpu} {s s' : Corrida cfg} {w : List (Marco (ℤ × ℤ))} {n : ℕ} {op : OpCache}
  {deudas deudas' : List (ℤ × ℤ)} {e : EntradaCache} {pid pagina : ℤ} {k : ℤ × ℤ}
  {f : EntradaCache → EntradaCache} {r : List EntradaCache} {x : EntradaCache}

/-- The textbook's frame of an entry: a page that owes its use bit still has it there. -/
def marcoDe (deudas : List (ℤ × ℤ)) (e : EntradaCache) : Marco (ℤ × ℤ) :=
  ⟨some (clave e), e.bitUso || decide (clave e ∈ deudas)⟩

/-- While the cache fills up the hand is at its first entry, which is the oldest. -/
structure Llenando (s : Corrida cfg) (w : List (Marco (ℤ × ℤ))) (f : List EntradaCache) (k : ℕ) :
    Prop where
  entradas : s.cache.entradas = f ++ List.replicate k entradaLimpia
  puntero : s.cache.puntero = 0
  usadas : ∀ e ∈ f, e.ocupado = true ∧ e.bitUso = true
  distintas : (f.map clave).Nodup
  cargada : s.cargada = none
  deudas : s.deudas = []
  marcos : w = List.replicate k ⟨none, false⟩ ++ f.map (marcoDe [])

/-- After a replacement the hand is at the page that it loaded, which the textbook has last. -/
structure Girando (s : Corrida cfg) (w : List (Marco (ℤ × ℤ))) (x : EntradaCache)
    (r : List EntradaCache) : Prop where
  vista : desdePuntero s.cache = x :: r
  puntero : s.cache.puntero < s.cache.entradas.length
  ocupadas : ∀ e ∈ x :: r, e.ocupado = true
  distintas : ((x :: r).map clave).Nodup
  cargada : s.cargada = some (clave x)
  usada : x.bitUso = true
  salda : clave x ∉ s.deudas
  deben : ∀ e ∈ r, clave e ∈ s.deudas → e.bitUso = false
  marcos : w = r.map (marcoDe s.deudas) ++ [⟨some (clave x), true⟩]

def Corresponde (s : Corrida cfg) (w : List (Marco (ℤ × ℤ))) : Prop :=
  (s.cache.entradas = [] ∧ w = []) ∨ (∃ f k, Llenando s w f k) ∨ ∃ x r, Girando s w x r

theorem claves_llenando {g : List EntradaCache} {k : ℕ} (h : Llenando s w g k) :
    claves s.cache = g.map clave := by
  have hg : g.filter (fun e => e.ocupado) = g :=
    List.filter_eq_self.mpr fun e he => (h.usadas e he).1
  have hlimpias : (List.replicate k entradaLimpia).filter (fun e => e.ocupado) = [] := by
    rw [List.filter_eq_nil_iff]
    intro e he
    rw [List.eq_of_mem_replicate he]
    exact Bool.false_ne_true
  rw [claves, h.entradas, List.filter_append, hg, hlimpias, List.append_nil]

theorem girando_llena (h : Girando s w x r) : ∀ e ∈ s.cache.entradas, e.ocupado = true := by
  intro e he
  refine h.ocupadas e ?_
  rw [← h.vista]
  exact List.mem_rotate.mpr he

theorem claves_girando (h : Girando s w x r) : (claves s.cache).Perm ((x :: r).map clave) := by
  rw [← h.vista]
  exact claves_perm (girando_llena h)

/-- A hit keeps the page of the entry and sets its use bit. -/
structure Golpe (f : EntradaCache → EntradaCache) : Prop where
  ocupado : ∀ e, (f e).ocupado = e.ocupado
  clave : ∀ e, CpuCacheClock.clave (f e) = CpuCacheClock.clave e
  usa : ∀ e, (f e).bitUso = true

theorem clave_golpeada (hf : Golpe f) : clave (golpeada k f e) = clave e := by
  rw [golpeada]
  split
  · exact hf.clave e
  · rfl

theorem ocupado_golpeada (hf : Golpe f) : (golpeada k f e).ocupado = e.ocupado := by
  rw [golpeada]
  split
  · exact hf.ocupado e
  · rfl

theorem usada_golpeada (hf : Golpe f) (h : e.bitUso = true) : (golpeada k f e).bitUso = true := by
  rw [golpeada]
  split
  · exact hf.usa e
  · exact h

theorem marco_golpeada (hf : Golpe f) (hocupada : e.ocupado = true) :
    marcoDe (deudas.filter fun k' => k' ≠ k) (golpeada k f e) =
      if (marcoDe deudas e).pagina = some k then { marcoDe deudas e with uso := true }
      else marcoDe deudas e := by
  by_cases hk : clave e = k
  · have htiene : tiene k e = true := tiene_iff.mpr ⟨hocupada, hk⟩
    rw [marcoDe, clave_golpeada hf, golpeada, if_pos htiene, hf.usa, Bool.true_or]
    exact (if_pos (congrArg some hk)).symm
  · have hno : ¬tiene k e = true := fun h => hk (tiene_iff.mp h).2
    have hmem : clave e ∈ (deudas.filter fun k' => k' ≠ k) ↔ clave e ∈ deudas := by
      rw [List.mem_filter, decide_eq_true_eq]
      exact and_iff_left hk
    rw [golpeada, if_neg hno, marcoDe, decide_eq_decide.mpr hmem]
    exact (if_neg fun h => hk (Option.some.inj h)).symm

theorem marcos_golpeadas (hf : Golpe f) (hocupadas : ∀ e ∈ r, e.ocupado = true) :
    usar k (r.map (marcoDe deudas)) =
      (r.map (golpeada k f)).map (marcoDe (deudas.filter fun k' => k' ≠ k)) := by
  rw [usar, List.map_map, List.map_map]
  refine List.map_congr_left fun e he => ?_
  exact (marco_golpeada hf (hocupadas e he)).symm

theorem usar_append {us zs : List (Marco (ℤ × ℤ))} : usar k (us ++ zs) = usar k us ++ usar k zs :=
  List.map_append

theorem usar_libres {n : ℕ} : usar k (List.replicate n (⟨none, false⟩ : Marco (ℤ × ℤ))) =
    List.replicate n ⟨none, false⟩ := List.map_replicate

theorem llenando_golpe {g : List EntradaCache} {n : ℕ} (h : Llenando s w g n) (hf : Golpe f)
    (hpaso : golpear s pid pagina f = some s') :
    s'.victimas = s.victimas ∧
      Llenando s' (usar (pid, pagina) w) (g.map (golpeada (pid, pagina) f)) n := by
  have hnodup : (claves s.cache).Nodup := by
    rw [claves_llenando h]
    exact h.distintas
  obtain ⟨hentradas, hpuntero, hvictimas, hcargada, hdeudas⟩ := golpear_vista hnodup hpaso
  refine ⟨hvictimas, ?_⟩
  constructor
  · rw [hentradas, h.entradas, List.map_append, List.map_replicate]
    rfl
  · exact hpuntero.trans h.puntero
  · intro e he
    obtain ⟨y, hy, rfl⟩ := List.mem_map.mp he
    obtain ⟨hocupada, husada⟩ := h.usadas y hy
    exact ⟨(ocupado_golpeada hf).trans hocupada, usada_golpeada hf husada⟩
  · rw [List.map_map]
    have hclaves : g.map (clave ∘ golpeada (pid, pagina) f) = g.map clave :=
      List.map_congr_left fun e _ => clave_golpeada hf
    rw [hclaves]
    exact h.distintas
  · exact hcargada.trans h.cargada
  · rw [hdeudas, h.deudas]
    rfl
  · rw [h.marcos, usar_append, usar_libres,
      marcos_golpeadas hf fun e he => (h.usadas e he).1]
    rfl

theorem girando_golpe (h : Girando s w x r) (hf : Golpe f)
    (hpaso : golpear s pid pagina f = some s') :
    s'.victimas = s.victimas ∧ Girando s' (usar (pid, pagina) w) (golpeada (pid, pagina) f x)
      (r.map (golpeada (pid, pagina) f)) := by
  have hnodup : (claves s.cache).Nodup := (claves_girando h).nodup_iff.mpr h.distintas
  obtain ⟨hentradas, hpuntero, hvictimas, hcargada, hdeudas⟩ := golpear_vista hnodup hpaso
  refine ⟨hvictimas, ?_⟩
  constructor
  · rw [desdePuntero, hentradas, hpuntero, ← List.map_rotate, ← desdePuntero, h.vista]
    rfl
  · rw [hentradas, hpuntero, List.length_map]
    exact h.puntero
  · rw [← List.map_cons]
    intro e he
    obtain ⟨y, hy, rfl⟩ := List.mem_map.mp he
    exact (ocupado_golpeada hf).trans (h.ocupadas y hy)
  · rw [← List.map_cons, List.map_map]
    have hclaves : (x :: r).map (clave ∘ golpeada (pid, pagina) f) = (x :: r).map clave :=
      List.map_congr_left fun e _ => clave_golpeada hf
    rw [hclaves]
    exact h.distintas
  · rw [hcargada, h.cargada, clave_golpeada hf]
  · exact usada_golpeada hf h.usada
  · rw [clave_golpeada hf, hdeudas]
    exact fun hmem => h.salda (List.mem_filter.mp hmem).1
  · intro e he hdebe
    obtain ⟨y, hy, rfl⟩ := List.mem_map.mp he
    rw [clave_golpeada hf, hdeudas] at hdebe
    obtain ⟨hdebe, hotra⟩ := List.mem_filter.mp hdebe
    have hno : ¬tiene (pid, pagina) y = true :=
      fun htiene => of_decide_eq_true hotra (tiene_iff.mp htiene).2
    rw [golpeada, if_neg hno]
    exact h.deben y hy hdebe
  · have hultima : usar (pid, pagina) [(⟨some (clave x), true⟩ : Marco (ℤ × ℤ))] =
        [⟨some (clave x), true⟩] := by
      rw [usar, List.map_singleton]
      split <;> rfl
    rw [h.marcos, usar_append, hultima, hdeudas, clave_golpeada hf,
      marcos_golpeadas hf fun e he => h.ocupadas e (List.mem_cons_of_mem _ he)]

/-- A page goes to the first free entry. -/
theorem insertar_libre {c c' : Cache} {m m' : Memoria cfg} {g : List EntradaCache} {n : ℕ}
    (nueva : EntradaCache) (hentradas : c.entradas = g ++ List.replicate (n + 1) entradaLimpia)
    (hocupadas : ∀ e ∈ g, e.ocupado = true)
    (h : insertarEnCache cpu c m nueva.pid nueva.pagina nueva.marco nueva.contenido
      nueva.bitModificado = some (c', m')) :
    c'.entradas = (g ++ [{ nueva with ocupado := true, bitUso := true }]) ++
      List.replicate n entradaLimpia ∧ c'.puntero = c.puntero := by
  have hne : c.entradas ≠ [] := by
    rw [hentradas]
    exact List.append_ne_nil_of_right_ne_nil g (List.cons_ne_nil _ _)
  have hprimera : c.entradas.findIdx? (fun e => !e.ocupado) = some g.length := by
    have hno : g.findIdx? (fun e => !e.ocupado) = none := by
      rw [List.findIdx?_eq_none_iff]
      intro e he
      rw [hocupadas e he]
      rfl
    rw [hentradas, List.findIdx?_append, hno, List.replicate_succ, List.findIdx?_cons]
    simp [entradaLimpia]
  rw [insertarEnCache, if_neg hne, hprimera] at h
  cases h
  refine ⟨?_, rfl⟩
  rw [aplicarReemplazoCache, hentradas, List.set_append_right _ _ le_rfl, Nat.sub_self,
    List.replicate_succ, List.set_cons_zero, List.append_assoc]
  rfl

theorem desalojadas_nil {c c' : Cache} (h : claves c ⊆ claves c') : desalojadas c c' = [] := by
  rw [desalojadas, List.filter_eq_nil_iff]
  intro k hk
  rw [decide_eq_true_eq, not_not]
  exact h hk

theorem llena_llenando {g : List EntradaCache} (h : Llenando s w g n) :
    llena s.cache = decide (n = 0) := by
  have hg : g.all (fun e => e.ocupado) = true :=
    List.all_eq_true.mpr fun e he => (h.usadas e he).1
  rw [llena, h.entradas, List.all_append, hg, Bool.true_and]
  cases n with
  | zero => rfl
  | succ n => rfl

/-- The entry that an insertion writes. -/
def nuevaDe (pid pagina marco : ℤ) (contenido : List Byte) (modificado : Bool) : EntradaCache :=
  ⟨true, pid, pagina, contenido, true, modificado, marco⟩

variable {marco : ℤ} {contenido : List Byte} {modificado : Bool}

/-- What an insertion does besides what the cache does. -/
theorem insertar_casos (h : pasoCache cpu (.insertar pid pagina marco contenido modificado) s =
    some s') :
    (pid, pagina) ∉ claves s.cache ∧ ∃ c' m',
      insertarEnCache cpu s.cache s.memoria pid pagina marco contenido modificado = some (c', m') ∧
      s'.cache = c' ∧ s'.victimas = s.victimas ++ desalojadas s.cache c' ∧
      s'.cargada = (if llena s.cache then some (pid, pagina) else s.cargada) ∧
      s'.deudas = (if llena s.cache then
        (s.cargada.toList ++ s.deudas).filter fun k => k ≠ (pid, pagina) else s.deudas) := by
  rw [pasoCache] at h
  by_cases hfalta : obtenerEntradaCache s.cache pid pagina = none
  · rw [if_pos hfalta] at h
    obtain ⟨⟨c', m'⟩, hinserta, h⟩ := Option.bind_eq_some_iff.mp h
    refine ⟨falta_clave hfalta, c', m', hinserta, ?_⟩
    dsimp only at h
    by_cases hllena : llena s.cache = true
    · rw [if_pos hllena] at h
      cases h
      rw [if_pos hllena, if_pos hllena]
      exact ⟨rfl, rfl, rfl, rfl⟩
    · rw [if_neg hllena] at h
      cases h
      rw [if_neg hllena, if_neg hllena]
      exact ⟨rfl, rfl, rfl, rfl⟩
  · rw [if_neg hfalta] at h
    cases h

theorem llenando_libre {g : List EntradaCache} (h : Llenando s w g (n + 1))
    (hpaso : pasoCache cpu (.insertar pid pagina marco contenido modificado) s = some s') :
    ∃ w', paso (.carga (pid, pagina)) (s.victimas, w) = some (s'.victimas, w') ∧
      Llenando s' w' (g ++ [nuevaDe pid pagina marco contenido modificado]) n := by
  obtain ⟨hfalta, c', m', hinserta, hcache, hvictimas, hcargada, hdeudas⟩ := insertar_casos hpaso
  obtain ⟨hentradas, hpuntero⟩ := insertar_libre (nuevaDe pid pagina marco contenido modificado)
    h.entradas (fun e he => (h.usadas e he).1) hinserta
  rw [llena_llenando h, if_neg (by simp)] at hcargada hdeudas
  have hclaves := claves_llenando h
  have hllenando : ∀ w', w' = List.replicate n ⟨none, false⟩ ++
      (g ++ [nuevaDe pid pagina marco contenido modificado]).map (marcoDe []) →
      Llenando s' w' (g ++ [nuevaDe pid pagina marco contenido modificado]) n := by
    intro w' hw'
    constructor
    · rw [hcache]
      exact hentradas
    · rw [hcache, hpuntero]
      exact h.puntero
    · intro e he
      rcases List.mem_append.mp he with he | he
      · exact h.usadas e he
      · cases List.mem_singleton.mp he
        exact ⟨rfl, rfl⟩
    · rw [List.map_append, List.map_singleton]
      refine List.nodup_append.mpr ⟨h.distintas, List.nodup_singleton _, ?_⟩
      intro k hk k' hk' heq
      rw [List.mem_singleton.mp hk'] at heq
      rw [hclaves] at hfalta
      subst heq
      exact hfalta hk
    · exact hcargada.trans h.cargada
    · exact hdeudas.trans h.deudas
    · exact hw'
  have hninguna : desalojadas s.cache c' = [] := by
    apply desalojadas_nil
    have hclaves' := claves_llenando (hllenando _ rfl)
    rw [hcache] at hclaves'
    rw [hclaves, hclaves', List.map_append]
    exact List.subset_append_left _ _
  refine ⟨_, ?_, hllenando _ rfl⟩
  rw [paso, h.marcos, List.replicate_succ, List.cons_append, cargar_libre rfl, hvictimas, hninguna,
    List.map_append, List.append_assoc]
  rfl

/-- The page that a replacement takes out, and the page under the hand after it. -/
theorem girando_reemplazo {c' : Cache} {xs : List EntradaCache}
    (hpaso : pasoCache cpu (.insertar pid pagina marco contenido modificado) s = some s')
    (hcache : s'.cache = c') (hcargada : s'.cargada = some (pid, pagina))
    (hdeudas : s'.deudas = (s.cargada.toList ++ s.deudas).filter fun k => k ≠ (pid, pagina))
    (hllena : ∀ e ∈ s.cache.entradas, e.ocupado = true) (hnodup : (claves s.cache).Nodup)
    (hantes : ((desdePuntero s.cache).map clave).Perm (clave e :: xs.map clave))
    (hxs : ∀ y ∈ xs, y.ocupado = true)
    (hvista : desdePuntero c' = nuevaDe pid pagina marco contenido modificado :: xs)
    (hpuntero : c'.puntero < c'.entradas.length)
    (hdeben : ∀ y ∈ xs, clave y ∈ s'.deudas → y.bitUso = false)
    (hmarcos : w = xs.map (marcoDe s'.deudas) ++ [⟨some (pid, pagina), true⟩]) :
    s'.victimas = s.victimas ++ [clave e] ∧
      Girando s' w (nuevaDe pid pagina marco contenido modificado) xs := by
  obtain ⟨hfalta, c₁, m', -, hc₁, hvictimas, -, -⟩ := insertar_casos hpaso
  cases hc₁.symm.trans hcache
  have hocupadas : ∀ y ∈ nuevaDe pid pagina marco contenido modificado :: xs, y.ocupado = true := by
    intro y hy
    rcases List.mem_cons.mp hy with rfl | hy
    · rfl
    · exact hxs y hy
  have hllena' : ∀ y ∈ c'.entradas, y.ocupado = true := by
    intro y hy
    refine hocupadas y ?_
    rw [← hvista]
    exact List.mem_rotate.mpr hy
  have hdespues : ((desdePuntero c').map clave).Perm
      (clave (nuevaDe pid pagina marco contenido modificado) :: xs.map clave) := by
    rw [hvista, List.map_cons]
  have hfalta' : clave (nuevaDe pid pagina marco contenido modificado) ∉ claves s.cache := hfalta
  obtain ⟨hvictima, hnodup'⟩ := desalojada_vista hllena hllena' hnodup hfalta' hantes hdespues
  constructor
  · rw [hvictimas, hvictima]
  · constructor
    · rw [hcache]
      exact hvista
    · rw [hcache]
      exact hpuntero
    · exact hocupadas
    · rw [List.map_cons]
      exact ((claves_perm hllena').trans hdespues).nodup_iff.mp hnodup'
    · exact hcargada
    · rfl
    · rw [hdeudas]
      exact fun hmem => of_decide_eq_true (List.mem_filter.mp hmem).2 rfl
    · exact hdeben
    · exact hmarcos

theorem clave_sinUso : clave (sinUso e) = clave e := rfl

theorem claves_sinUso : (r.map sinUso).map clave = r.map clave := by
  rw [List.map_map]
  exact List.map_congr_left fun e _ => rfl

/-- The first replacement goes around: every page has been used since it was loaded. -/
theorem llenando_vuelta (halg : cpu.algoritmoCache = .clock) {us : List EntradaCache}
    (h : Llenando s w (e :: us) 0)
    (hpaso : pasoCache cpu (.insertar pid pagina marco contenido modificado) s = some s') :
    ∃ w', paso (.carga (pid, pagina)) (s.victimas, w) = some (s'.victimas, w') ∧
      ∃ x r, Girando s' w' x r := by
  obtain ⟨-, c', m', hinserta, hcache, -, hcargada, hdeudas⟩ := insertar_casos hpaso
  have hentradas : s.cache.entradas = e :: us := by
    rw [h.entradas, List.replicate_zero, List.append_nil]
  have hvista : desdePuntero s.cache = e :: us := by
    rw [desdePuntero, h.puntero, List.rotate_zero, hentradas]
  have hllena : ∀ y ∈ s.cache.entradas, y.ocupado = true := by
    rw [hentradas]
    exact fun y hy => (h.usadas y hy).1
  have hp : s.cache.puntero < s.cache.entradas.length := by
    rw [h.puntero, hentradas]
    exact Nat.succ_pos _
  rw [llena_llenando h, decide_eq_true rfl, if_pos rfl] at hcargada hdeudas
  obtain ⟨hvista', hpuntero', -⟩ := insertar_vuelta halg hp
    (nuevaDe pid pagina marco contenido modificado) hllena hvista
    (fun y hy => (h.usadas y hy).2) hinserta
  have hsinDeudas : s'.deudas = [] := by
    rw [hdeudas, h.cargada, h.deudas]
    rfl
  have hnodup : (claves s.cache).Nodup := by
    rw [claves_llenando h]
    exact h.distintas
  have hantes : ((desdePuntero s.cache).map clave).Perm (clave e :: (us.map sinUso).map clave) := by
    rw [hvista, claves_sinUso, List.map_cons]
  obtain ⟨hvictimas, hgira⟩ := girando_reemplazo hpaso hcache hcargada hdeudas hllena hnodup hantes
    (fun y hy => by
      obtain ⟨u, hu, rfl⟩ := List.mem_map.mp hy
      exact (h.usadas u (List.mem_cons_of_mem _ hu)).1) hvista' hpuntero'
    (fun y hy _ => by
      obtain ⟨u, -, rfl⟩ := List.mem_map.mp hy
      rfl) rfl
  refine ⟨_, ?_, _, _, hgira⟩
  have husados : ∀ u ∈ marcoDe [] e :: us.map (marcoDe []), u.uso = true := by
    rw [← List.map_cons]
    intro u hu
    obtain ⟨y, hy, rfl⟩ := List.mem_map.mp hu
    rw [marcoDe, (h.usadas y hy).2]
    rfl
  have hmarcos : w = marcoDe [] e :: us.map (marcoDe []) := by
    rw [h.marcos, List.replicate_zero, List.nil_append, List.map_cons]
  have hbajar : (us.map (marcoDe [])).map bajar = (us.map sinUso).map (marcoDe []) := by
    rw [List.map_map, List.map_map]
    exact List.map_congr_left fun u _ => rfl
  rw [paso, hmarcos, cargar_vuelta husados, hvictimas, hsinDeudas, hbajar]
  rfl

theorem llena_girando (h : Girando s w x r) : llena s.cache = true :=
  List.all_eq_true.mpr (girando_llena h)

/-- With one entry the page under the hand is the victim. -/
theorem girando_unica (halg : cpu.algoritmoCache = .clock) (h : Girando s w x [])
    (hpaso : pasoCache cpu (.insertar pid pagina marco contenido modificado) s = some s') :
    ∃ w', paso (.carga (pid, pagina)) (s.victimas, w) = some (s'.victimas, w') ∧
      ∃ x r, Girando s' w' x r := by
  obtain ⟨-, c', m', hinserta, hcache, -, hcargada, hdeudas⟩ := insertar_casos hpaso
  have hllena := girando_llena h
  rw [if_pos (llena_girando h)] at hcargada hdeudas
  obtain ⟨hvista', hpuntero', -⟩ := insertar_vuelta halg h.puntero
    (nuevaDe pid pagina marco contenido modificado) hllena h.vista
    (fun y hy => List.mem_singleton.mp hy ▸ h.usada) hinserta
  have hnodup : (claves s.cache).Nodup := (claves_girando h).nodup_iff.mpr h.distintas
  have hantes : ((desdePuntero s.cache).map clave).Perm
      (clave x :: ([] : List EntradaCache).map clave) := by
    rw [h.vista, List.map_cons]
  obtain ⟨hvictimas, hgira⟩ := girando_reemplazo hpaso hcache hcargada hdeudas hllena hnodup hantes
    (fun y hy => nomatch hy) hvista' hpuntero' (fun y hy => nomatch hy) rfl
  refine ⟨_, ?_, _, _, hgira⟩
  have hcarga : cargar (pid, pagina) [⟨some (clave x), true⟩] =
      some (some (clave x), [⟨some (pid, pagina), true⟩]) :=
    cargar_vuelta fun u hu => by rw [List.mem_singleton.mp hu]
  rw [paso, h.marcos, List.map_nil, List.nil_append, hcarga, hvictimas]
  rfl

/-- A replacement after the first, when the first page without use bit owes none. -/
theorem girando_primera (halg : cpu.algoritmoCache = .clock) {us zs : List EntradaCache}
    (h : Girando s w x (us ++ e :: zs)) (hus : ∀ u ∈ us, u.bitUso = true) (huso : e.bitUso = false)
    (hsalda : clave e ∉ s.deudas)
    (hpaso : pasoCache cpu (.insertar pid pagina marco contenido modificado) s = some s') :
    ∃ w', paso (.carga (pid, pagina)) (s.victimas, w) = some (s'.victimas, w') ∧
      ∃ x r, Girando s' w' x r := by
  obtain ⟨hfalta, c', m', hinserta, hcache, -, hcargada, hdeudas⟩ := insertar_casos hpaso
  have hllena := girando_llena h
  rw [if_pos (llena_girando h)] at hcargada hdeudas
  rw [h.cargada, Option.toList_some, List.singleton_append] at hdeudas
  have hvista : desdePuntero s.cache = (x :: us) ++ e :: zs := h.vista
  have hxus : ∀ u ∈ x :: us, u.bitUso = true := by
    intro u hu
    rcases List.mem_cons.mp hu with rfl | hu
    · exact h.usada
    · exact hus u hu
  obtain ⟨hvista', hpuntero', -⟩ := insertar_primera halg h.puntero
    (nuevaDe pid pagina marco contenido modificado) hllena hvista hxus huso hinserta
  have hnodup : (claves s.cache).Nodup := (claves_girando h).nodup_iff.mpr h.distintas
  have hperm : (x :: (us ++ e :: zs)).Perm (e :: (zs ++ x :: us)) := by
    have hmedio : (x :: (us ++ e :: zs)).Perm (e :: ((x :: us) ++ zs)) :=
      @List.perm_middle _ e (x :: us) zs
    exact hmedio.trans (List.perm_append_comm.cons e)
  have hantes : ((desdePuntero s.cache).map clave).Perm
      (clave e :: (zs ++ (x :: us).map sinUso).map clave) := by
    rw [h.vista, List.map_append, claves_sinUso, ← List.map_append, ← List.map_cons]
    exact hperm.map clave
  have hmem : ∀ y ∈ x :: (us ++ e :: zs), clave y ∈ claves s.cache :=
    fun y hy => (claves_girando h).mem_iff.mpr (List.mem_map_of_mem hy)
  have hnueva : ∀ y ∈ x :: (us ++ e :: zs), clave y ≠ (pid, pagina) :=
    fun y hy heq => hfalta (heq ▸ hmem y hy)
  have hotra : ∀ y ∈ us ++ e :: zs, clave y ≠ clave x := by
    intro y hy heq
    exact (List.nodup_cons.mp h.distintas).1 (heq ▸ List.mem_map_of_mem hy)
  -- a debt of a page other than the one under the hand is an old one
  have hdebe : ∀ y ∈ us ++ e :: zs, clave y ∈ s'.deudas ↔ clave y ∈ s.deudas := by
    intro y hy
    rw [hdeudas, List.mem_filter, decide_eq_true_eq, List.mem_cons]
    constructor
    · rintro ⟨hx | hvieja, -⟩
      · exact absurd hx (hotra y hy)
      · exact hvieja
    · exact fun hvieja => ⟨Or.inr hvieja, hnueva y (List.mem_cons_of_mem _ hy)⟩
  have hus' : ∀ u ∈ us, clave u ∉ s'.deudas := by
    intro u hu hdeuda
    have hr : u ∈ us ++ e :: zs := List.mem_append_left _ hu
    have hclara := h.deben u hr ((hdebe u hr).mp hdeuda)
    rw [hus u hu] at hclara
    cases hclara
  have hdebeX : clave x ∈ s'.deudas := by
    rw [hdeudas]
    exact List.mem_filter.mpr ⟨List.mem_cons_self, decide_eq_true (hnueva x List.mem_cons_self)⟩
  have hzs : ∀ z ∈ zs, z ∈ us ++ e :: zs :=
    fun z hz => List.mem_append_right us (List.mem_cons_of_mem e hz)
  obtain ⟨hvictimas, hgira⟩ := girando_reemplazo hpaso hcache hcargada
    (by rw [hdeudas, h.cargada, Option.toList_some, List.singleton_append]) hllena hnodup hantes
    (fun y hy => by
      rcases List.mem_append.mp hy with hz | hy
      · exact h.ocupadas y (List.mem_cons_of_mem _ (hzs y hz))
      · obtain ⟨u, hu, rfl⟩ := List.mem_map.mp hy
        exact h.ocupadas u (hperm.mem_iff.mpr (List.mem_cons_of_mem _
          (List.mem_append_right zs hu))))
    hvista' hpuntero'
    (fun y hy hdeuda => by
      rcases List.mem_append.mp hy with hz | hy
      · exact h.deben y (hzs y hz) ((hdebe y (hzs y hz)).mp hdeuda)
      · obtain ⟨u, -, rfl⟩ := List.mem_map.mp hy
        rfl) rfl
  refine ⟨_, ?_, _, _, hgira⟩
  have hmarcos : w = us.map (marcoDe s.deudas) ++ marcoDe s.deudas e ::
      (zs.map (marcoDe s.deudas) ++ [⟨some (clave x), true⟩]) := by
    rw [h.marcos, List.map_append, List.map_cons, List.append_assoc, List.cons_append]
  have husados : ∀ u ∈ us.map (marcoDe s.deudas), u.uso = true := by
    intro u hu
    obtain ⟨y, hy, rfl⟩ := List.mem_map.mp hu
    rw [marcoDe, hus y hy]
    rfl
  have hlibre : (marcoDe s.deudas e).uso = false := by
    rw [marcoDe, huso, decide_eq_false hsalda]
    rfl
  have hmarcosZs : zs.map (marcoDe s'.deudas) = zs.map (marcoDe s.deudas) := by
    refine List.map_congr_left fun z hz => ?_
    rw [marcoDe, marcoDe, decide_eq_decide.mpr (hdebe z (hzs z hz))]
  have hmarcosUs : (us.map sinUso).map (marcoDe s'.deudas) =
      (us.map (marcoDe s.deudas)).map bajar := by
    rw [List.map_map, List.map_map]
    refine List.map_congr_left fun u hu => ?_
    rw [Function.comp_apply, marcoDe, clave_sinUso, decide_eq_false (hus' u hu)]
    rfl
  have hmarcoX : marcoDe s'.deudas (sinUso x) = ⟨some (clave x), true⟩ := by
    rw [marcoDe, clave_sinUso, decide_eq_true hdebeX, Bool.or_true]
  rw [paso, hmarcos, cargar_primero husados hlibre, hvictimas, List.map_append, List.map_cons,
    List.map_cons, hmarcosZs, hmarcosUs, hmarcoX, List.append_assoc, List.append_assoc]
  simp [marcoDe]

theorem golpe_leer : Golpe fun e => { e with bitUso := true } := by
  constructor <;> intro e <;> rfl

theorem golpe_escribir {contenido : List Byte} :
    Golpe fun e => { e with contenido := contenido, bitModificado := true, bitUso := true } := by
  constructor <;> intro e <;> rfl

theorem corresponde_golpe (h : Corresponde s w) (hf : Golpe f)
    (hpaso : golpear s pid pagina f = some s') :
    s'.victimas = s.victimas ∧ Corresponde s' (usar (pid, pagina) w) := by
  rcases h with ⟨hvacia, -⟩ | ⟨g, n, h⟩ | ⟨x, r, h⟩
  · rw [golpear, obtenerEntradaCache, hvacia] at hpaso
    cases hpaso
  · obtain ⟨hvictimas, hsigue⟩ := llenando_golpe h hf hpaso
    exact ⟨hvictimas, Or.inr (Or.inl ⟨_, _, hsigue⟩)⟩
  · obtain ⟨hvictimas, hsigue⟩ := girando_golpe h hf hpaso
    exact ⟨hvictimas, Or.inr (Or.inr ⟨_, _, hsigue⟩)⟩

theorem vacia_insertar (hvacia : s.cache.entradas = [])
    (hpaso : pasoCache cpu (.insertar pid pagina marco contenido modificado) s = some s') :
    ∃ w', paso (.carga (pid, pagina)) (s.victimas, []) = some (s'.victimas, w') ∧
      Corresponde s' w' := by
  obtain ⟨-, c', m', hinserta, hcache, hvictimas, -, -⟩ := insertar_casos hpaso
  rw [insertarEnCache, if_pos hvacia] at hinserta
  cases hinserta
  rw [desalojadas_nil (List.Subset.refl _), List.append_nil] at hvictimas
  refine ⟨[], ?_, Or.inl ⟨hcache ▸ hvacia, rfl⟩⟩
  rw [paso, cargar, if_pos rfl, hvictimas]
  simp

theorem corresponde_insertar (halg : cpu.algoritmoCache = .clock) (h : Corresponde s w)
    (hsalda : Saldada (.insertar pid pagina marco contenido modificado) s)
    (hpaso : pasoCache cpu (.insertar pid pagina marco contenido modificado) s = some s') :
    ∃ w', paso (.carga (pid, pagina)) (s.victimas, w) = some (s'.victimas, w') ∧
      Corresponde s' w' := by
  rcases h with ⟨hvacia, rfl⟩ | ⟨g, n, h⟩ | ⟨x, r, h⟩
  · exact vacia_insertar hvacia hpaso
  · cases n with
    | succ n =>
      obtain ⟨w', hcarga, hsigue⟩ := llenando_libre h hpaso
      exact ⟨w', hcarga, Or.inr (Or.inl ⟨_, _, hsigue⟩)⟩
    | zero =>
      cases g with
      | nil =>
        have hw : w = [] := h.marcos
        rw [hw]
        exact vacia_insertar h.entradas hpaso
      | cons e us =>
        obtain ⟨w', hcarga, hsigue⟩ := llenando_vuelta halg h hpaso
        exact ⟨w', hcarga, Or.inr (Or.inr hsigue)⟩
  · have htail : (desdePuntero s.cache).tail = r := congrArg List.tail h.vista
    have hlargo : s.cache.entradas.length = r.length + 1 := by
      rw [← List.length_rotate s.cache.entradas s.cache.puntero, ← desdePuntero, h.vista,
        List.length_cons]
    rw [Saldada, saldada, primeraSinUso, htail, hlargo, h.cargada] at hsalda
    cases hbusca : r.find? fun e => !e.bitUso with
    | none =>
      rw [hbusca] at hsalda
      have hcorta : r.length = 0 := by simpa using hsalda
      cases List.length_eq_zero_iff.mp hcorta
      obtain ⟨w', hcarga, hsigue⟩ := girando_unica halg h hpaso
      exact ⟨w', hcarga, Or.inr (Or.inr hsigue)⟩
    | some e =>
      obtain ⟨huso, us, zs, rfl, hus⟩ := List.find?_eq_some_iff_append.mp hbusca
      rw [hbusca] at hsalda
      have hdeuda : clave e ∉ s.deudas := by simpa using hsalda
      obtain ⟨w', hcarga, hsigue⟩ := girando_primera halg h (fun u hu => by simpa using hus u hu)
        (by simpa using huso) hdeuda hpaso
      exact ⟨w', hcarga, Or.inr (Or.inr hsigue)⟩

theorem corresponde_paso (halg : cpu.algoritmoCache = .clock) (h : Corresponde s w)
    (hsalda : Saldada op s) (hpaso : pasoCache cpu op s = some s') :
    ∃ w', paso (opDe op) (s.victimas, w) = some (s'.victimas, w') ∧ Corresponde s' w' := by
  cases op with
  | leer pid pagina =>
    obtain ⟨hvictimas, hsigue⟩ := corresponde_golpe h golpe_leer hpaso
    exact ⟨_, congrArg (fun v => some (v, _)) hvictimas.symm, hsigue⟩
  | escribir pid pagina contenido =>
    obtain ⟨hvictimas, hsigue⟩ := corresponde_golpe h golpe_escribir hpaso
    exact ⟨_, congrArg (fun v => some (v, _)) hvictimas.symm, hsigue⟩
  | insertar pid pagina marco contenido modificado =>
    exact corresponde_insertar halg h hsalda hpaso

theorem puntero_corresponde (h : Corresponde s w) (hne : s.cache.entradas ≠ []) :
    s.cache.puntero < s.cache.entradas.length := by
  rcases h with ⟨hvacia, -⟩ | ⟨f, k, h⟩ | ⟨x, r, h⟩
  · exact absurd hvacia hne
  · rw [h.puntero]
    exact List.length_pos_of_ne_nil hne
  · exact h.puntero

theorem largo_insertar {c c' : Cache} {m m' : Memoria cfg} (halg : cpu.algoritmoCache = .clock)
    (hp : c.entradas ≠ [] → c.puntero < c.entradas.length)
    (h : insertarEnCache cpu c m pid pagina marco contenido modificado = some (c', m')) :
    c'.entradas.length = c.entradas.length := by
  rw [insertarEnCache] at h
  split at h
  · cases h
    rfl
  · next hne =>
    split at h
    · cases h
      exact List.length_set
    · rw [seleccionarVictimaCache, halg] at h
      obtain ⟨⟨v, c₁⟩, hbusca, h⟩ := Option.bind_eq_some_iff.mp h
      obtain ⟨e, -, h⟩ := Option.bind_eq_some_iff.mp h
      have hc' : c' = aplicarReemplazoCache c₁ v pid pagina marco contenido modificado := by
        dsimp only at h
        split at h
        · obtain ⟨m₁, -, h⟩ := Option.bind_eq_some_iff.mp h
          cases h
          rfl
        · cases h
          rfl
      rw [hc']
      exact List.length_set.trans (soloUso_length (clock_soloUso hbusca (hp hne)).1)

theorem largo_paso (halg : cpu.algoritmoCache = .clock) (h : Corresponde s w)
    (hpaso : pasoCache cpu op s = some s') :
    s'.cache.entradas.length = s.cache.entradas.length := by
  have hgolpe : ∀ {pid pagina : ℤ} {f : EntradaCache → EntradaCache},
      golpear s pid pagina f = some s' → s'.cache.entradas.length = s.cache.entradas.length := by
    intro pid pagina f hgolpe
    obtain ⟨i, -, hgolpe⟩ := Option.bind_eq_some_iff.mp hgolpe
    obtain ⟨e, -, hgolpe⟩ := Option.bind_eq_some_iff.mp hgolpe
    cases hgolpe
    exact List.length_set
  cases op with
  | leer pid pagina => exact hgolpe hpaso
  | escribir pid pagina contenido => exact hgolpe hpaso
  | insertar pid pagina marco contenido modificado =>
    obtain ⟨-, c', m', hinserta, hcache, -⟩ := insertar_casos hpaso
    rw [hcache]
    exact largo_insertar halg (puntero_corresponde h) hinserta

theorem corresponde_corrida (halg : cpu.algoritmoCache = .clock) {ops : List OpCache}
    (h : Corresponde s w) (hC : Cumple (pasoCache cpu) Saldada ops s)
    (hrun : correr (pasoCache cpu) ops s = some s') :
    ∃ w', correr paso (ops.map opDe) (s.victimas, w) = some (s'.victimas, w') ∧
      Corresponde s' w' ∧ s'.cache.entradas.length = s.cache.entradas.length := by
  induction ops generalizing s w with
  | nil =>
    cases hrun
    exact ⟨w, rfl, h, rfl⟩
  | cons op ops ih =>
    obtain ⟨s₁, hpaso, hresto⟩ := Option.bind_eq_some_iff.mp hrun
    obtain ⟨hsalda, hCresto⟩ := hC
    obtain ⟨w₁, hcarga, hsigue⟩ := corresponde_paso halg h hsalda hpaso
    obtain ⟨w', hcorre, hfin, hlargo⟩ := ih hsigue (hCresto s₁ hpaso) hresto
    refine ⟨w', ?_, hfin, hlargo.trans (largo_paso halg h hpaso)⟩
    rw [List.map_cons, correr_cons, hcarga]
    exact hcorre

theorem corresponde_inicio (n : ℕ) (m : Memoria cfg) :
    Corresponde (inicioCorrida n m) (List.replicate n ⟨none, false⟩) := by
  refine Or.inr (Or.inl ⟨[], n, ?_⟩)
  constructor
  · rfl
  · rfl
  · exact fun e he => nomatch he
  · exact List.nodup_nil
  · rfl
  · rfl
  · exact (List.append_nil _).symm

end Correspondencia

/-- While the pages that owe their use bit are not reached, the victims are those of the
second-chance clock; a selection always ends within one entry more than a turn. -/
theorem clock_segunda_oportunidad (cpu : Cpu) (halg : cpu.algoritmoCache = .clock) (n : ℕ)
    (m : Memoria cfg) (ops : List OpCache) (s : Corrida cfg)
    (hrun : correr (pasoCache cpu) ops (inicioCorrida n m) = some s)
    (hC : Cumple (pasoCache cpu) Saldada ops (inicioCorrida n m)) :
    (∃ marcos, correr paso (ops.map opDe) ([], List.replicate n ⟨none, false⟩) =
      some (s.victimas, marcos)) ∧
    (n ≠ 0 → ∃ r, buscarVictimaClock (n + 1) s.cache = some r) := by
  obtain ⟨marcos, hcorre, hfin, hlargo⟩ := corresponde_corrida halg (corresponde_inicio n m) hC hrun
  have hn : s.cache.entradas.length = n := hlargo.trans List.length_replicate
  constructor
  · exact ⟨marcos, hcorre⟩
  · intro hpos
    have hne : s.cache.entradas ≠ [] := by
      intro hnil
      rw [hnil] at hn
      exact hpos hn.symm
    rw [← hn]
    exact clock_termina (puntero_corresponde hfin hne)

def cargas (paginas : List ℤ) : List OpCache :=
  paginas.map fun p => .insertar 1 p p [] false

/-- Three entries, and a page that is used again between two replacements. -/
def opsSaldadas : List OpCache := cargas [0, 1, 2, 3] ++ [.leer 1 1] ++ cargas [4]

theorem clock_ejemplo : ∃ s,
    correr (pasoCache cpuEjemplo) opsSaldadas (inicioCorrida 3 (inicial configEjemplo)) = some s ∧
    (∃ marcos, correr paso (opsSaldadas.map opDe) ([], List.replicate 3 ⟨none, false⟩) =
      some (s.victimas, marcos)) ∧ (3 ≠ 0 → ∃ r, buscarVictimaClock (3 + 1) s.cache = some r) := by
  have hdefinida : (correr (pasoCache cpuEjemplo) opsSaldadas
      (inicioCorrida 3 (inicial configEjemplo))).isSome = true := by decide +kernel
  have hC : Cumple (pasoCache cpuEjemplo) Saldada opsSaldadas
      (inicioCorrida 3 (inicial configEjemplo)) := by decide +kernel
  obtain ⟨s, hs⟩ := Option.isSome_iff_exists.mp hdefinida
  exact ⟨s, hs, clock_segunda_oportunidad cpuEjemplo rfl 3 _ opsSaldadas s hs hC⟩

def opsEndeudadas : List OpCache := opsSaldadas ++ cargas [5]

/-- Page 3 lost its use bit when page 4 was loaded and is the victim of page 5; the clock
takes page 1. -/
theorem desaloja_la_cargada :
    (correr (pasoCache cpuEjemplo) opsEndeudadas
      (inicioCorrida 3 (inicial configEjemplo))).map Corrida.victimas =
        some [(1, 0), (1, 2), (1, 3)] ∧
    (correr paso (opsEndeudadas.map opDe) ([], List.replicate 3 ⟨none, false⟩)).map Prod.fst =
      some [(1, 0), (1, 2), (1, 1)] := by
  constructor
  · decide +kernel
  · decide +kernel

end CpuCacheClock

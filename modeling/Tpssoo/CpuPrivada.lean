import Tpssoo.Bloques
import Tpssoo.CpuDesalojo
import Tpssoo.CpuGiros
import Tpssoo.CpuProteccion
import Tpssoo.MemoriaResidencia
import Tpssoo.SistemaConjunto

/-!
# A process alone

What a program can count on: its instructions and a flat memory of its own, with no frames,
tables or swap behind it. A CPU with its TLB and its cache over the frames of a process is
that machine, and leaves everything else in Memoria as it was.
-/
namespace CpuPrivada

open EnterosC Protocolo RangosBytes Bloques CacheDiferida MemoriaEstado MemoriaTraduccion
  MemoriaPeticiones MemoriaFilas MemoriaEfectos MemoriaInvariante MemoriaAdmision MemoriaMarcos
  CpuEstado CpuTlb CpuCache CpuAccesos CpuMemoria CpuCoherencia CpuRafagas CpuProteccion
  CpuTransparencia CpuInstrucciones CpuCiclo CpuDesalojo CpuGiros MemoriaInstrucciones
open SistemaConjunto (deCpu)

variable {cfg : Config} {cpu : Cpu} {pid : ℤ} {p : Proceso cfg} {ps : List (Proceso cfg)}

section Maquina

def EnMemoria (memoria : List Byte) (direccionLogica : ℤ) : Prop :=
  0 ≤ direccionLogica ∧ direccionLogica < memoria.length

instance (memoria : List Byte) (dl : ℤ) : Decidable (EnMemoria memoria dl) :=
  inferInstanceAs (Decidable (_ ∧ _))

/-- An access to a flat memory: a fault past the end of its page or of the memory. A copy
that leaves its page, after an int sum that overflowed, is undefined. -/
def accesoPrivado (cfg : Config) (memoria : List Byte) : Acceso → Option (Resultado × List Byte)
  | .read dl tamanio =>
    if ExcedeLimite cfg dl tamanio ∨ ¬ EnMemoria memoria dl then some (.segmentationFault, memoria)
    else if EnPagina cfg (obtenerOffset cfg dl) tamanio then
      some (.hecho (leerRango memoria dl.toNat tamanio.toNat), memoria)
    else none
  | .write dl datos =>
    if ExcedeLimite cfg dl (aInt datos.length) ∨ ¬ EnMemoria memoria dl then
      some (.segmentationFault, memoria)
    else if EnPagina cfg (obtenerOffset cfg dl) (aInt datos.length) then
      some (.hecho [], escribirRango memoria dl.toNat (datos.take (aInt datos.length).toNat))
    else none

/-- A program over its memory. -/
def privada (cfg : Config) (programa : List Instruccion) : Maquina (List Byte) where
  fetch memoria pc := some ((instruccionEn programa pc).map alCpu, memoria)
  acceso memoria acc := accesoPrivado cfg memoria acc
  limpiar memoria := some memoria

end Maquina

/-- A process as Memoria keeps it: its pages fit in its table, and no two of them have one
frame. -/
structure Instalado (p : Proceso cfg) : Prop where
  forma : p.BienFormado
  tamanio : TamanioAdmisible cfg p.tamProceso
  cabe : paginasRequeridas cfg p.tamProceso ≤ cfg.cantidadMarcos
  distintos : ∀ (j k : ℕ) (e e' : EntradaTabla), p.entradas[j]? = some e →
    p.entradas[k]? = some e' → e.presente = true → e'.presente = true →
    e.numeroMarco.toNat = e'.numeroMarco.toNat → j = k

/-- Page `k` of a process whose pages are in the frames `v`. -/
def paginaEn (v : ℕ → List Byte) (p : Proceso cfg) (k : ℕ) : Option (List Byte) :=
  (p.entradas[k]?).bind fun e => if e.presente then some (v e.numeroMarco.toNat) else none

/-- The pages of a process are a flat memory. -/
abbrev Llena (p : Proceso cfg) (w : ℕ → Option (List Byte)) (memoria : List Byte) : Prop :=
  Reparte cfg.tamPagina (paginasDadas cfg p.tamProceso) w memoria

section Paginas

variable {v : ℕ → List Byte} {memoria : List Byte} {dl : ℤ} {k : ℕ} {m : Memoria cfg}

/-- The processes of Memoria with an admissible size. -/
theorem instalado_de_invariante (h : Invariante m)
    (hp : buscarProceso m.diccionarioProcesos pid = some p)
    (htam : TamanioAdmisible cfg p.tamProceso)
    (hcabe : paginasRequeridas cfg p.tamProceso ≤ cfg.cantidadMarcos) : Instalado p where
  forma := h.formas p (buscarProceso_some hp).1
  tamanio := htam
  cabe := hcabe
  distintos := by
    intro j k e e' he he' hpres hpres' hmarco
    have hrango : ∀ x ∈ p.entradas, x.presente = true → 0 ≤ x.numeroMarco := by
      intro x hx hpx
      have hmem : x ∈ todasEntradas m.diccionarioProcesos :=
        List.mem_flatMap.mpr ⟨p, (buscarProceso_some hp).1, hx⟩
      exact (marco_rango h.entradas hmem hpx).1
    have h₀ := hrango e (List.mem_of_getElem? he) hpres
    have h₁ := hrango e' (List.mem_of_getElem? he') hpres'
    exact (pagina_unica EntradaTabla.presente h.pids h.entradas.duenosMarcos.1 ⟨p, hp, he⟩
      ⟨p, hp, he'⟩ hpres hpres' (by omega)).2

theorem paginaEn_presente {e : EntradaTabla} (he : p.entradas[k]? = some e)
    (hpres : e.presente = true) : paginaEn v p k = some (v e.numeroMarco.toNat) := by
  rw [paginaEn, he, Option.bind_some, if_pos hpres]

theorem paginaEn_some {xs : List Byte} (h : paginaEn v p k = some xs) :
    ∃ e, p.entradas[k]? = some e ∧ e.presente = true ∧ v e.numeroMarco.toNat = xs := by
  rw [paginaEn] at h
  obtain ⟨e, he, h⟩ := Option.bind_eq_some_iff.mp h
  split at h
  · rename_i hpres
    exact ⟨e, he, hpres, Option.some.inj h⟩
  · cases h

/-- The pages that a process was given are those of its size. -/
theorem dadas_eq (h : Instalado p) :
    (paginasDadas cfg p.tamProceso : ℤ) = paginasRequeridas cfg p.tamProceso := by
  obtain ⟨h₀, h₁, -⟩ := h.tamanio
  rw [← paginasRequeridas_eq_ceil] at h₀ h₁
  rw [paginasDadas]
  omega

/-- The translator accepts the addresses of the flat memory. -/
theorem acepta_iff (h : Instalado p) :
    Acepta p dl ↔ 0 ≤ dl ∧ dl < paginasDadas cfg p.tamProceso * cfg.tamPagina := by
  have hpos := tamPagina_int_pos cfg
  have hdadas := dadas_eq h
  rw [hdadas]
  by_cases htam : 0 < p.tamProceso
  · rw [Acepta, totalPaginas_eq htam h.cabe]
    constructor
    · rintro ⟨hpag, h₀⟩
      exact ⟨h₀, (pagina_lt_iff cfg _ h₀).mp hpag⟩
    · rintro ⟨h₀, hlt⟩
      exact ⟨(pagina_lt_iff cfg _ h₀).mpr hlt, h₀⟩
  · -- a size in (-page, 0] has no pages, and its page total is zero
    have hcero : paginasRequeridas cfg p.tamProceso = 0 := by
      have hno := mt (paginas_pos_iff cfg).mp htam
      have h₀ := h.tamanio.1
      rw [← paginasRequeridas_eq_ceil] at h₀
      omega
    have hmayor : -(cfg.tamPagina : ℤ) < p.tamProceso := by
      by_contra hno
      rw [paginasRequeridas, if_neg (by omega), neg_eq_zero] at hcero
      have huno : 1 ≤ -p.tamProceso / cfg.tamPagina := by
        apply Int.le_ediv_of_mul_le hpos
        omega
      omega
    have htotal : totalPaginas p = 0 := by
      have hmax := cfg.tamPagina_int
      rw [totalPaginas, aInt_eq ⟨by omega, by omega⟩]
      exact Int.tdiv_eq_zero_of_lt (by omega) (by omega)
    rw [Acepta, htotal, hcero, Int.zero_mul]
    constructor
    · rintro ⟨hpag, h₀⟩
      have := Int.tdiv_nonneg h₀ hpos.le
      omega
    · rintro ⟨h₀, hlt⟩
      omega

theorem acepta_enMemoria {w : ℕ → Option (List Byte)} (h : Instalado p) (hll : Llena p w memoria) :
    Acepta p dl ↔ EnMemoria memoria dl := by
  rw [acepta_iff h, EnMemoria, hll.largo, Nat.cast_mul]

/-- The page number and the offset of an address, as naturals. -/
theorem direccion_natural (cfg : Config) (h₀ : 0 ≤ dl) :
    obtenerPagina cfg dl = ((dl.toNat / cfg.tamPagina : ℕ) : ℤ) ∧
      obtenerOffset cfg dl = ((dl.toNat % cfg.tamPagina : ℕ) : ℤ) := by
  obtain ⟨d, rfl⟩ := Int.eq_ofNat_of_zero_le h₀
  exact ⟨rfl, rfl⟩

/-- The translation of an address of the flat memory, and the page that its frame holds. -/
theorem traducir_enMemoria (h : Instalado p) (hll : Llena p (paginaEn v p) memoria)
    (hen : EnMemoria memoria dl) :
    ∃ e, p.entradas[dl.toNat / cfg.tamPagina]? = some e ∧ e.presente = true ∧
      traducir p dl = some (.traduccionOk e.numeroMarco) ∧
      dl.toNat / cfg.tamPagina < paginasDadas cfg p.tamProceso ∧
      v e.numeroMarco.toNat =
        leerRango memoria (dl.toNat / cfg.tamPagina * cfg.tamPagina) cfg.tamPagina := by
  have hk : dl.toNat / cfg.tamPagina < paginasDadas cfg p.tamProceso := by
    apply Nat.div_lt_of_lt_mul
    rw [Nat.mul_comm, ← hll.largo]
    have hmenor := hen.2
    have hcero := hen.1
    omega
  obtain ⟨e, he, hpres, hpagina⟩ := paginaEn_some (hll.dentro hk)
  have hpag := (direccion_natural cfg hen.1).1
  rw [obtenerPagina] at hpag
  have hindice : (dl.tdiv cfg.tamPagina).toNat = dl.toNat / cfg.tamPagina := by
    rw [hpag, Int.toNat_natCast]
  have hbits : cfg.nivelesInferiores * cfg.bitsPorNivel < 32 := by
    have hdadas := dadas_eq h
    rw [paginasRequeridas_eq_ceil] at hdadas
    rcases h.tamanio.2.2 with hcero | hbits
    · omega
    · exact hbits
  refine ⟨e, he, hpres, ?_, hk, hpagina⟩
  apply traducir_presente h.forma hbits ((acepta_enMemoria h hll).mpr hen)
  · rw [hindice]
    exact hk.trans_le (Nat.min_le_right _ _)
  · rw [hindice]
    exact he
  · exact hpres

/-- A write of the flat memory is a write of the frame of its page. -/
theorem llena_escribir (h : Instalado p) (hll : Llena p (paginaEn v p) memoria)
    {e : EntradaTabla} (he : p.entradas[k]? = some e) (hpres : e.presente = true)
    (hk : k < paginasDadas cfg p.tamProceso) {i : ℕ} {ys : List Byte}
    (hi : i + ys.length ≤ cfg.tamPagina) :
    Llena p (paginaEn (Function.update v e.numeroMarco.toNat
        (escribirRango (v e.numeroMarco.toNat) i ys)) p)
      (escribirRango memoria (k * cfg.tamPagina + i) ys) := by
  have hpagina : v e.numeroMarco.toNat = leerRango memoria (k * cfg.tamPagina) cfg.tamPagina := by
    apply Option.some.inj
    rw [← paginaEn_presente he hpres]
    exact hll.dentro hk
  have hescrita := hll.escribir hk hi
  rw [← hpagina] at hescrita
  have hpaginas : paginaEn (Function.update v e.numeroMarco.toNat
      (escribirRango (v e.numeroMarco.toNat) i ys)) p =
      Function.update (paginaEn v p) k (some (escribirRango (v e.numeroMarco.toNat) i ys)) := by
    funext j
    by_cases hj : j = k
    · subst hj
      rw [paginaEn_presente he hpres, Function.update_self, Function.update_self]
    · rw [Function.update_of_ne hj]
      cases hej : p.entradas[j]? with
      | none => rw [paginaEn, paginaEn, hej, Option.bind_none, Option.bind_none]
      | some e' =>
        rw [paginaEn, paginaEn, hej, Option.bind_some, Option.bind_some]
        by_cases hpres' : e'.presente = true
        · rw [if_pos hpres', if_pos hpres', Function.update_of_ne]
          intro hmarco
          exact hj (h.distintos j k e' e hej he hpres' hpres hmarco)
        · rw [if_neg hpres', if_neg hpres']
  rw [hpaginas]
  exact hescrita

end Paginas

section Accesos

variable {v : ℕ → List Byte} {memoria : List Byte}

/-- The machine on the frames of a process is the machine on its flat memory. -/
theorem acceso_privado (h : Instalado p) (hll : Llena p (paginaEn v p) memoria) (acc : Acceso) :
    Option.Rel (fun x y => x.1 = y.1 ∧ Llena p (paginaEn x.2 p) y.2) (accesoDirecto p v acc)
      (accesoPrivado cfg memoria acc) := by
  have hpagina : ∀ dl : ℤ, 0 ≤ dl →
      dl.toNat / cfg.tamPagina * cfg.tamPagina + (obtenerOffset cfg dl).toNat = dl.toNat := by
    intro dl h₀
    rw [(direccion_natural cfg h₀).2, Int.toNat_natCast]
    exact Nat.div_add_mod' _ _
  have hfuera : ∀ dl, ¬ EnMemoria memoria dl → traducir p dl = some .paginaFueraDeRango :=
    fun dl hno => traducir_fuera (mt (acepta_enMemoria h hll).mp hno)
  cases acc with
  | read dl tamanio =>
    rw [accesoPrivado]
    by_cases hexc : ExcedeLimite cfg dl tamanio
    · rw [accesoDirecto, if_pos hexc, if_pos (Or.inl hexc)]
      exact .some ⟨rfl, hll⟩
    by_cases hen : EnMemoria memoria dl
    · obtain ⟨e, -, -, htrad, -, hv⟩ := traducir_enMemoria h hll hen
      have hno : ¬ (ExcedeLimite cfg dl tamanio ∨ ¬ EnMemoria memoria dl) := by tauto
      rw [directo_read hexc htrad, if_neg hno, copiarDePagina]
      by_cases hpag : EnPagina cfg (obtenerOffset cfg dl) tamanio
      · have htrozo : (obtenerOffset cfg dl).toNat + tamanio.toNat ≤ cfg.tamPagina := by
          obtain ⟨h₀, h₁, h₂⟩ := hpag
          omega
        rw [if_pos hpag, if_pos hpag, hv, leer_leer htrozo, hpagina dl hen.1]
        exact .some ⟨rfl, hll⟩
      · rw [if_neg hpag, if_neg hpag]
        exact .none
    · have hrefuta : accesoDirecto p v (.read dl tamanio) = some (.segmentationFault, v) :=
        directo_refutado (hfuera dl hen) fun f hf => by cases hf
      rw [if_pos (Or.inr hen), hrefuta]
      exact .some ⟨rfl, hll⟩
  | write dl datos =>
    rw [accesoPrivado]
    by_cases hexc : ExcedeLimite cfg dl (aInt datos.length)
    · rw [accesoDirecto, if_pos hexc, if_pos (Or.inl hexc)]
      exact .some ⟨rfl, hll⟩
    by_cases hen : EnMemoria memoria dl
    · obtain ⟨e, he, hpres, htrad, hk, -⟩ := traducir_enMemoria h hll hen
      have hno : ¬ (ExcedeLimite cfg dl (aInt datos.length) ∨ ¬ EnMemoria memoria dl) := by tauto
      rw [directo_write hexc htrad, if_neg hno, copiarAPagina]
      by_cases hpag : EnPagina cfg (obtenerOffset cfg dl) (aInt datos.length)
      · have hcorta : (obtenerOffset cfg dl).toNat +
            (datos.take (aInt datos.length).toNat).length ≤ cfg.tamPagina := by
          obtain ⟨h₀, h₁, h₂⟩ := hpag
          have := List.length_take_le (aInt datos.length).toNat datos
          omega
        rw [if_pos hpag, if_pos hpag]
        refine .some ⟨rfl, ?_⟩
        have hescrita := llena_escribir h hll he hpres hk hcorta
        rw [hpagina dl hen.1] at hescrita
        exact hescrita
      · rw [if_neg hpag, if_neg hpag]
        exact .none
    · have hrefuta : accesoDirecto p v (.write dl datos) = some (.segmentationFault, v) :=
        directo_refutado (hfuera dl hen) fun f hf => by cases hf
      rw [if_pos (Or.inr hen), hrefuta]
      exact .some ⟨rfl, hll⟩

end Accesos

end CpuPrivada

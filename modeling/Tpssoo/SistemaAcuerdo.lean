import Tpssoo.SistemaTramites
import Tpssoo.KernelPedidos
import Tpssoo.MemoriaPropia
import Tpssoo.MemoriaMarcos
import Tpssoo.SistemaResidencia

/-!
# What Memoria keeps is what the kernel has

Memoria keeps a process from the moment it agrees to create it until it is asked to finish
it, and the kernel learns of both later. Between the two points the answers on the way make
up the difference, whatever the order of the steps. A process is lost to Memoria when the
gestor cannot connect: its block is freed and its pages stay.
-/
namespace SistemaAcuerdo

open EnterosC Protocolo KernelEstado KernelFunciones KernelHilos KernelVistas KernelPcbs
open KernelPresentes KernelLargoPlazo KernelAdmision KernelLugares KernelPedidos KernelGestor
open MemoriaEstado MemoriaSwap MemoriaPeticiones MemoriaFilas MemoriaEfectos MemoriaInvariante
open MemoriaPrivada
open MemoriaResidencia SistemaConjunto SistemaTramites Entrelazado Tartamudeo
open MemoriaPropia (mismo_efecto nace_de_atender)
open MapaDeBits (libres_add_duenos)
open SistemaResidencia (arranqueEjemplo trasEventos)

variable {cfg : Config} {c : ConfigKernel} {s s' : Conjunto cfg} {es : List Evento} {p : ℤ}

/-- Memoria keeps the process. -/
def Viva (m : Memoria cfg) (p : ℤ) : Prop := buscarProceso m.diccionarioProcesos p ≠ none

/-- Memoria has created the process, and the planner has not admitted it yet. -/
def Aceptada (s : Conjunto cfg) (p : ℤ) : Prop :=
  Contestada s (.largoAguarda p false) (.largoResuelve p false true) .initProcesoOk

/-- Memoria has finished the process, and the gestor has not freed its block yet. -/
def Terminada (s : Conjunto cfg) (p : ℤ) : Prop :=
  Contestada s (.gestorAguarda p) (.gestorLibera p true) .finalizacionOk

/-- The processes that the kernel has, as far as Memoria has been told. -/
structure Debida (s : Conjunto cfg) (p : ℤ) : Prop where
  bloque : (s.kernel.comun.pcbs p).isSome
  aceptada : p ∈ s.kernel.comun.colas .new → Aceptada s p
  sigue : ¬ Terminada s p

/-- The process that the gestor frees without Memoria: it could not connect. -/
def pierde (e : Evento) : Option ℤ :=
  match accionDe e with
  | some (.gestorFallaConexion p) => some p
  | _ => none

def Perdida (es : List Evento) (p : ℤ) : Prop := p ∈ es.filterMap pierde

instance (es : List Evento) (p : ℤ) : Decidable (Perdida es p) :=
  inferInstanceAs (Decidable (_ ∈ _))

/-- The size of a process, if its block is still allocated. -/
def DeTamanio (k : Kernel) (p t : ℤ) : Prop :=
  p < k.ultimoPid ∧ ∀ b, k.pcbs p = some b → b.tamanioProceso = t

structure Acuerdo (es : List Evento) (s : Conjunto cfg) : Prop where
  planificador : Planificador s.kernel
  nuevos : Nuevos s.kernel
  pids : Pids s.kernel.comun
  gestor : Gestor s.kernel
  memoria : Paginas s.memoria
  conexas : Conexas s
  frescas : ∀ x ∈ s.conexiones, x.respuesta = none → PidFresco s.memoria x.peticion
  finalizadas : ∀ x ∈ s.conexiones, ∀ p envios, x.hilo = .gestorAguarda p →
    x.respuesta = some envios → confirma .finalizacionOk envios = true
  falladas : ∀ p, .gestorLibera p false ∈ s.kernel.hilos → Perdida es p
  perdidas : ∀ p, Perdida es p → (0 ≤ p ∧ p < s.kernel.comun.ultimoPid) ∧
    (.gestorLibera p false ∈ s.kernel.hilos ∨ s.kernel.comun.pcbs p = none)
  naturales : 0 ≤ s.kernel.comun.ultimoPid ∧ ∀ p, (s.kernel.comun.pcbs p).isSome → 0 ≤ p
  pedidos : ∀ x ∈ s.conexiones, ∀ p t n path, x.peticion = .initProc p t n path →
    DeTamanio s.kernel.comun p t
  tamanios : ∀ p q, buscarProceso s.memoria.diccionarioProcesos p = some q →
    DeTamanio s.kernel.comun p q.tamProceso
  vivas : s.kernel.comun.indefinido = false → ∀ p, Viva s.memoria p ↔ Debida s p ∨ Perdida es p

section Memoria

variable {m m' : Memoria cfg} {env : Entorno} {pet : Peticion} {envios : List Envio} {h : Hilo}

theorem finalizar_quita (hat : atenderPostHandshake env m (.finalizarProceso p) =
    some (envios, m')) : envios = responder OpCode.finalizacionOk.codigo ∧ ¬ Viva m' p := by
  rw [atenderPostHandshake] at hat
  obtain ⟨rfl, rfl⟩ := Prod.mk.inj (Option.some.inj hat)
  refine ⟨rfl, fun hviva => hviva ?_⟩
  rw [destruirProceso]
  cases hp : buscarProceso m.diccionarioProcesos p with
  | none => exact hp
  | some q =>
    rw [buscarProceso_none]
    intro r hr
    have hfuera := (List.mem_filter.mp hr).2
    simpa using hfuera

/-- Memoria keeps the processes that it kept, less the one that it finishes, and the one that
it creates. -/
theorem viva_de_atender (hI : Paginas m)
    (hat : atenderPostHandshake env m pet = some (envios, m')) :
    Viva m' p ↔ Viva m p ∧ pet ≠ .finalizarProceso p ∨
      (∃ t n path, pet = .initProc p t n path) ∧ confirma .initProcesoOk envios = true := by
  constructor
  · intro hviva
    by_cases hantes : Viva m p
    · refine Or.inl ⟨hantes, ?_⟩
      rintro rfl
      exact (finalizar_quita hat).2 hviva
    · obtain ⟨t, n, path, hpet, rfl⟩ :=
        nace_de_atender hI.pids hat (not_not.mp hantes) hviva
      exact Or.inr ⟨⟨t, n, path, hpet⟩, rfl⟩
  · rintro (⟨hviva, hno⟩ | ⟨⟨t, n, path, rfl⟩, hok⟩)
    · exact viva_efecto (efecto_de_atender hI.pids hat) hno hviva
    · rw [atenderPostHandshake] at hat
      split at hat
      · cases hat
      · rcases almacenar_cases hat with ⟨-, rfl | rfl⟩ | ⟨inst, -, -, rfl⟩
        · exact absurd hok (by decide)
        · exact absurd hok (by decide)
        · rw [Viva, viva_iff, guardarProceso, List.map_cons, pid_crearProceso]
          exact List.mem_cons_self

theorem tamanio_de_atender (hI : Paginas m) (hfresco : PidFresco m pet)
    (hat : atenderPostHandshake env m pet = some (envios, m')) {q : Proceso cfg}
    (hq : buscarProceso m'.diccionarioProcesos p = some q) :
    (∃ r, buscarProceso m.diccionarioProcesos p = some r ∧ q.tamProceso = r.tamProceso) ∨
      ∃ n path, pet = .initProc p q.tamProceso n path := by
  have hef := efecto_de_atender hI.pids hat
  cases hp : buscarProceso m.diccionarioProcesos p with
  | some r => exact Or.inl ⟨r, rfl, (mismo_efecto hfresco hef hp hq).1.tam⟩
  | none =>
    right
    have hviva : buscarProceso m'.diccionarioProcesos p ≠ none := by
      rw [hq]
      exact Option.some_ne_none q
    obtain ⟨t, n, path, rfl, rfl⟩ := nace_de_atender hI.pids hat hp hviva
    refine ⟨n, path, ?_⟩
    rw [atenderPostHandshake] at hat
    split at hat
    · cases hat
    · rcases almacenar_cases hat with ⟨rfl, -⟩ | ⟨inst, -, -, rfl⟩
      · exact absurd hp hviva
      · have hpid := pid_crearProceso cfg m.almacen.bitmapMarcos p t inst
        have htam : (crearProceso cfg m.almacen.bitmapMarcos p t inst).1.tamProceso = t := by
          unfold crearProceso
          dsimp only
          split <;> rfl
        have hcabeza : some q = some (crearProceso cfg m.almacen.bitmapMarcos p t inst).1 := by
          rw [← hq, guardarProceso, buscarProceso, List.find?_cons_of_pos]
          simp [hpid]
        rw [Option.some.inj hcabeza, htam]

theorem crea_iff (hc : Corresponde h pet) :
    (∃ t n path, pet = .initProc p t n path) ↔ h = .largoAguarda p false := by
  cases h with
  | largoAguarda q susp =>
    cases susp with
    | true =>
      cases hc
      simp
    | false =>
      obtain ⟨t, n, path, rfl⟩ := hc
      simp
  | gestorAguarda q | suspensionAguarda q | dumpAguarda q =>
    cases hc
    simp
  | _ => exact hc.elim

theorem finaliza_iff (hc : Corresponde h pet) :
    pet = .finalizarProceso p ↔ h = .gestorAguarda p := by
  cases h with
  | largoAguarda q susp =>
    cases susp with
    | true =>
      cases hc
      simp
    | false =>
      obtain ⟨t, n, path, rfl⟩ := hc
      simp
  | gestorAguarda q | suspensionAguarda q | dumpAguarda q =>
    cases hc
    simp
  | _ => exact hc.elim

end Memoria

section Kernel

variable {k : Kernel} {a : Accion} {l r : List Hilo} {m : Memoria cfg} {xs ys : List Conexion}

theorem deTamanio_efecto {t : ℤ} (h : DeTamanio k p t) :
    DeTamanio ((programa c).efecto k a) p t := by
  have hcambio : Cambio _ (vistaPcbs k) (vistaPcbs ((programa c).efecto k a)) p :=
    cambio_efecto c k a
  refine ⟨h.1.trans_le ultimoPid_efecto, fun b hb => ?_⟩
  rcases hcambio with ⟨-, h'⟩ | ⟨-, hq, hq', hm⟩ | ⟨-, hpid, -, -, -, -⟩ | ⟨-, -, h'⟩
  · exact h.2 b (h'.symm.trans hb)
  · cases hq'.symm.trans hb
    exact hm.tamanio.trans (h.2 _ hq)
  · exact absurd hpid h.1.ne
  · cases h'.symm.trans hb

/-- The candidate of the planner from `cola_new`. -/
theorem candidata (hI : Acuerdo es s) (hdef : s.kernel.comun.indefinido = false) {d : Hilo}
    (hd : d ∈ s.kernel.hilos) (hp : candidatoDe d = some (p, false)) :
    p ∈ s.kernel.comun.colas .new :=
  List.mem_of_mem_head? (hI.planificador.candidato hdef d hd p false hp)

/-- A process that Memoria has created for the planner is its candidate. -/
theorem aceptada_candidata (hI : Acuerdo es s) (h : Aceptada s p) :
    ∃ d ∈ s.kernel.hilos, candidatoDe d = some (p, false) := by
  rcases h with h | ⟨x, hx, hhilo, -⟩
  · exact ⟨_, h, rfl⟩
  · exact ⟨_, hhilo ▸ hI.conexas.espera hx, rfl⟩

theorem terminada_gestor (hI : Acuerdo es s) (h : Terminada s p) :
    ∃ d ∈ s.kernel.hilos, enGestor d = some p ∧ d ≠ .gestorPide p := by
  rcases h with h | ⟨x, hx, hhilo, -⟩
  · exact ⟨.gestorLibera p true, h, rfl, by simp⟩
  · refine ⟨.gestorAguarda p, ?_, rfl, by simp⟩
    rw [← hhilo]
    exact hI.conexas.espera hx

/-- A process that the gestor has is not in `cola_new`. -/
theorem gestor_no_nuevo (hI : Acuerdo es s) {d : Hilo} (hd : d ∈ s.kernel.hilos)
    (hp : enGestor d = some p) : p ∉ s.kernel.comun.colas .new ∧ p < s.kernel.comun.ultimoPid := by
  refine hI.nuevos.presentes.hilos d hd p ?_
  cases d <;> first | (cases hp; exact List.mem_cons_self) | cases hp

/-- A lost process is in no queue and the gestor will not ask for it. -/
theorem perdida_no_nueva (hI : Acuerdo es s) (h : Perdida es p) :
    p ∉ s.kernel.comun.colas .new := by
  intro hmem
  obtain ⟨-, hlib | hlib⟩ := hI.perdidas p h
  · exact (gestor_no_nuevo hI hlib rfl).1 hmem
  · have hvivo := (hI.nuevos.vivos p hmem).1
    rw [hlib] at hvivo
    cases hvivo

theorem perdida_sin_pedir (hI : Acuerdo es s) (hdef : s.kernel.comun.indefinido = false)
    (h : Perdida es p) : .gestorAguarda p ∉ s.kernel.hilos := by
  intro hmem
  obtain ⟨-, hlib | hlib⟩ := hI.perdidas p h
  · cases solo_gestiona hI.gestor hmem hlib rfl rfl
  · have hvivo := hI.gestor.vivo hdef _ hmem p rfl
    rw [hlib] at hvivo
    cases hvivo

theorem aceptada_mueve (hC : Conecta c k a xs ys) (ha : a ≠ .largoResuelve p false true) :
    Aceptada ⟨⟨(programa c).efecto k a, l ++ ((programa c).destino k a ++ r)⟩, m, ys⟩ p ↔
      Aceptada ⟨⟨k, l ++ (programa c).origen a :: r⟩, m, xs⟩ p := by
  refine contestada_mueve hC ?_ ⟨fun h => ?_, ?_⟩ fun h => ?_
  · intro heq
    cases a with
    | largoResuelve q susp ok =>
      cases heq
      exact ha rfl
    | _ => cases heq
  · rcases resuelto_destino h with rfl | ⟨-, hno⟩
    · exact ⟨rfl, rfl⟩
    · cases hno
  · rintro ⟨hesp, hor⟩
    cases a with
    | largoRecibe q susp ok =>
      cases hor
      cases hesp
      exact List.mem_cons_self
    | _ => cases hor
  · cases a with
    | largoRecibe q susp ok =>
      cases h
      exact ⟨ok, rfl⟩
    | _ => cases h

theorem terminada_mueve (hC : Conecta c k a xs ys) (ha : a ≠ .gestorLibera p true) :
    Terminada ⟨⟨(programa c).efecto k a, l ++ ((programa c).destino k a ++ r)⟩, m, ys⟩ p ↔
      Terminada ⟨⟨k, l ++ (programa c).origen a :: r⟩, m, xs⟩ p := by
  refine contestada_mueve hC ?_ ⟨fun h => ?_, ?_⟩ fun h => ?_
  · intro heq
    cases a with
    | gestorLibera q ok =>
      cases heq
      exact ha rfl
    | _ => cases heq
  · rcases libera_destino h with rfl | ⟨-, hno⟩
    · exact ⟨rfl, rfl⟩
    · cases hno
  · rintro ⟨hesp, hor⟩
    cases a with
    | gestorRecibe q ok =>
      cases hor
      cases hesp
      exact List.mem_cons_self
    | _ => cases hor
  · cases a with
    | gestorRecibe q ok =>
      cases h
      exact ⟨ok, rfl⟩
    | _ => cases h

/-- A step that does not free the process leaves it as it was for Memoria. -/
theorem debida_mueve (hI : Acuerdo es ⟨⟨k, l ++ (programa c).origen a :: r⟩, m, xs⟩)
    (hk : k.indefinido = false) (hC : Conecta c k a xs ys) (hlib : ∀ ok, a ≠ .gestorLibera p ok) :
    Debida ⟨⟨(programa c).efecto k a, l ++ ((programa c).destino k a ++ r)⟩, m, ys⟩ p ↔
      Debida ⟨⟨k, l ++ (programa c).origen a :: r⟩, m, xs⟩ p := by
  have hterm := terminada_mueve (l := l) (r := r) (m := m) hC (hlib true)
  have hor : (programa c).origen a ∈ l ++ (programa c).origen a :: r :=
    List.mem_append_right _ List.mem_cons_self
  by_cases hadm : a = .largoResuelve p false true
  · obtain ⟨hantes, hdespues⟩ := admitido_sale hI.planificador hI.nuevos hk hadm
    have hvivo : (k.pcbs p).isSome := (hI.nuevos.vivos p hantes).1
    constructor
    · intro h
      refine ⟨hvivo, fun _ => ?_, fun ht => h.sigue (hterm.mpr ht)⟩
      subst hadm
      exact Or.inl hor
    · exact fun h => ⟨vivo_tras hvivo hlib, fun hmem => absurd hmem hdespues,
        fun ht => h.sigue (hterm.mp ht)⟩
  have hacep := aceptada_mueve (l := l) (r := r) (m := m) hC hadm
  cases hp : k.pcbs p with
  | none =>
    constructor
    · intro h
      obtain ⟨rfl, hmem, -⟩ := nuevo_de_nace hp h.bloque
      obtain ⟨d, hd, hcand⟩ := aceptada_candidata hI (hacep.mp (h.aceptada hmem))
      exact absurd (hI.nuevos.vivos _ (candidata hI hk hd hcand)).2 (lt_irrefl _)
    · intro h
      have hvivo : (k.pcbs p).isSome := h.bloque
      rw [hp] at hvivo
      cases hvivo
  | some b =>
    have hvivo : (k.pcbs p).isSome := by
      rw [hp]
      rfl
    have hlt : p < k.ultimoPid := by
      by_contra hno
      cases hp.symm.trans (hI.pids.nuevos p (not_lt.mp hno))
    constructor
    · exact fun h => ⟨hvivo, fun hmem => hacep.mp (h.aceptada
        (nuevo_queda hI.planificador hk hadm hmem)), fun ht => h.sigue (hterm.mpr ht)⟩
    · exact fun h => ⟨vivo_tras hvivo hlib, fun hmem => hacep.mpr (h.aceptada
        (nuevo_estaba hlt hmem)), fun ht => h.sigue (hterm.mp ht)⟩

theorem perdida_concat {e : Evento} : Perdida (es ++ [e]) p ↔ Perdida es p ∨ pierde e = some p := by
  rw [Perdida, List.filterMap_append, List.mem_append, Perdida]
  refine or_congr_right ?_
  cases h : pierde e <;> simp [h, eq_comm]

theorem pierde_de {e : Evento} (ha : accionDe e = some a) :
    pierde e = some p ↔ a = .gestorFallaConexion p := by
  rw [pierde, ha]
  cases a <;> simp

theorem vivas_mueve {e : Evento}
    (hI : Acuerdo es ⟨⟨k, l ++ (programa c).origen a :: r⟩, m, xs⟩)
    (ha : accionDe e = some a) (hk : k.indefinido = false) (hC : Conecta c k a xs ys)
    (hdef : ((programa c).efecto k a).indefinido = false) : Viva m p ↔
      Debida ⟨⟨(programa c).efecto k a, l ++ ((programa c).destino k a ++ r)⟩, m, ys⟩ p ∨
        Perdida (es ++ [e]) p := by
  have hor : (programa c).origen a ∈ l ++ (programa c).origen a :: r :=
    List.mem_append_right _ List.mem_cons_self
  have hantes := hI.vivas hk p
  dsimp only at hantes
  rw [perdida_concat, pierde_de ha, hantes]
  by_cases hlib : ∃ ok, a = .gestorLibera p ok
  · obtain ⟨ok, rfl⟩ := hlib
    -- the block is freed: the process was finished, or is lost
    have hnada : ((programa c).efecto k (.gestorLibera p ok)).pcbs p = none := by
      dsimp only [programa, transicion] at hdef ⊢
      split at hdef
      · cases hdef
      · next hvivo =>
          rw [if_neg hvivo]
          exact Function.update_self _ _ _
    have hdespues : ¬ Debida ⟨⟨(programa c).efecto k (.gestorLibera p ok),
        l ++ ((programa c).destino k (.gestorLibera p ok) ++ r)⟩, m, ys⟩ p := by
      intro h
      have hvivo := h.bloque
      dsimp only at hvivo
      rw [hnada] at hvivo
      cases hvivo
    cases ok with
    | true =>
      have hno : ¬ Debida ⟨⟨k, l ++ (programa c).origen (.gestorLibera p true) :: r⟩, m, xs⟩ p :=
        fun h => h.sigue (Or.inl hor)
      simp [hno, hdespues]
    | false =>
      have hperdida := hI.falladas p hor
      simp [hperdida]
  have hmismo := debida_mueve hI hk hC (p := p) fun ok h => hlib ⟨ok, h⟩
  rw [hmismo]
  by_cases hfalla : a = .gestorFallaConexion p
  · have hdebida : Debida ⟨⟨k, l ++ (programa c).origen a :: r⟩, m, xs⟩ p := by
      subst hfalla
      refine ⟨hI.gestor.vivo hk _ hor p rfl, fun hmem => ?_, fun ht => ?_⟩
      · exact absurd hmem (gestor_no_nuevo hI hor rfl).1
      · obtain ⟨d, hd, hcand, hno⟩ := terminada_gestor hI ht
        exact hno (solo_gestiona hI.gestor hd hor (enGestor_gestiona hcand) rfl)
    simp [hdebida]
  · simp [hfalla]

/-- The planner asks for a process that Memoria does not keep. -/
theorem abre_fresca (hI : Acuerdo es ⟨⟨k, l ++ (programa c).origen a :: r⟩, m, xs⟩)
    (hk : k.indefinido = false) {x : Conexion} (h : abre k a = some x) {t n : ℤ}
    {path : List Byte} (hp : x.peticion = .initProc p t n path) :
    ¬ Viva m p ∧ DeTamanio k p t := by
  have hor : (programa c).origen a ∈ l ++ (programa c).origen a :: r :=
    List.mem_append_right _ List.mem_cons_self
  cases a with
  | largoEnvia q susp =>
    obtain ⟨b, hb, rfl⟩ := Option.map_eq_some_iff.mp h
    dsimp only at hp
    cases susp with
    | true => cases hp
    | false =>
      cases hp
      have hpid := hI.pids.propios q b hb
      rw [hpid]
      have hmem : q ∈ k.colas .new := candidata hI hk hor rfl
      refine ⟨fun hviva => ?_, (hI.nuevos.vivos q hmem).2, fun b' hb' => ?_⟩
      · rcases (hI.vivas hk q).mp hviva with hdebida | hperdida
        · -- the planner is one thread, and it has still to ask
          have haguarda : ∀ d ∈ l ++ (programa c).origen (.largoEnvia q false) :: r,
              candidatoDe d = some (q, false) → d = .largoPide q false := by
            intro d hd hcand
            by_contra hne
            refine hI.planificador.unico.solo (x := ()) rfl (List.mem_filterMap.mpr
              ⟨d, ?_, candidato_planifica hcand⟩)
            simp only [List.mem_append, List.mem_cons] at hd ⊢
            rcases hd with hd | hd | hd
            · exact Or.inl hd
            · exact absurd hd hne
            · exact Or.inr hd
          rcases hdebida.aceptada hmem with h | ⟨y, hy, hhilo, -⟩
          · cases haguarda _ h rfl
          · have hesp := hI.conexas.espera hy
            rw [hhilo] at hesp
            cases haguarda _ hesp rfl
        · exact perdida_no_nueva hI hperdida hmem
      · cases hb.symm.trans hb'
        rfl
  | gestorEnvia q | dumpEnvia q =>
    obtain ⟨b, -, rfl⟩ := Option.map_eq_some_iff.mp h
    cases hp
  | suspensionEnvia pid =>
    cases h
    cases hp
  | _ => cases h

theorem acuerdo_mueve {e : Evento}
    (hI : Acuerdo es ⟨⟨k, l ++ (programa c).origen a :: r⟩, m, xs⟩)
    (ha : accionDe e = some a) (hg : (programa c).guarda k a) (hC : Conecta c k a xs ys) :
    Acuerdo (es ++ [e])
      ⟨⟨(programa c).efecto k a, l ++ ((programa c).destino k a ++ r)⟩, m, ys⟩ := by
  have hor : (programa c).origen a ∈ l ++ (programa c).origen a :: r :=
    List.mem_append_right _ List.mem_cons_self
  have hviejos : ∀ {h}, h ∈ l ++ ((programa c).destino k a ++ r) →
      h ∈ (programa c).destino k a ∨ h ∈ l ++ (programa c).origen a :: r := by
    intro h hh
    simp only [List.mem_append, List.mem_cons] at hh ⊢
    tauto
  constructor
  · exact planificador_paso hI.planificador hg.1
  · exact nuevos_paso hI.nuevos hI.planificador hg.1
  · exact KernelLugares.pids_efecto hI.pids
  · exact gestor_paso hI.gestor hg.1
  · exact hI.memoria
  · exact conexas_mueve hI.pids hC hI.conexas
  · intro x hx hresp
    rcases hC.nuevas x hx with hx | hab
    · exact hI.frescas x hx hresp
    · cases hpet : x.peticion with
      | initProc p t n path => exact not_not.mp (abre_fresca hI hg.1 hab hpet).1
      | _ => trivial
  · intro x hx p envios hhilo hresp
    rcases hC.nuevas x hx with hx | hab
    · exact hI.finalizadas x hx p envios hhilo hresp
    · cases (abre_respuesta hab).symm.trans hresp
  · intro p hmem
    rw [perdida_concat, pierde_de ha]
    rcases hviejos hmem with hmem | hmem
    · rcases libera_destino hmem with rfl | ⟨rfl, -⟩
      · -- Memoria never refuses to finish a process
        exfalso
        obtain ⟨x, hx, hhilo, envios, esperado, ok, hresp, hesp, hok⟩ :=
          hC.toma (Option.some_ne_none _)
        cases hesp
        have hsi := hI.finalizadas x hx p envios hhilo hresp
        rw [hok] at hsi
        cases hsi
      · exact Or.inr rfl
    · exact Or.inl (hI.falladas p hmem)
  · intro p hp
    rw [perdida_concat, pierde_de ha] at hp
    rcases hp with hp | rfl
    · obtain ⟨⟨hcero, hlt⟩, hlib⟩ := hI.perdidas p hp
      refine ⟨⟨hcero, hlt.trans_le ultimoPid_efecto⟩, ?_⟩
      have hnada : k.pcbs p = none → ((programa c).efecto k a).pcbs p = none := by
        intro hnone
        cases hp' : ((programa c).efecto k a).pcbs p with
        | none => rfl
        | some b =>
          have hsome : (((programa c).efecto k a).pcbs p).isSome := by
            rw [hp']
            rfl
          obtain ⟨rfl, -⟩ := nuevo_de_nace hnone hsome
          exact absurd hlt (lt_irrefl _)
      rcases hlib with hlib | hlib
      · by_cases hno : (programa c).origen a = .gestorLibera p false
        · right
          obtain rfl : a = .gestorLibera p false := by
            cases a <;> first | (cases hno; rfl) | cases hno
          dsimp only [programa, transicion]
          split
          · next hvacio => exact Option.isNone_iff_eq_none.mp hvacio
          · exact Function.update_self _ _ _
        · exact Or.inl ((hilos_mueve hno).mpr (Or.inr hlib))
      · exact Or.inr (hnada hlib)
    · have hlt : p < k.ultimoPid := (gestor_no_nuevo hI hor rfl).2
      have hult : k.ultimoPid ≤ ((programa c).efecto k (.gestorFallaConexion p)).ultimoPid :=
        ultimoPid_efecto
      have hcero : 0 ≤ p := hI.naturales.2 p (hI.gestor.vivo hg.1 _ hor p rfl)
      refine ⟨⟨hcero, hlt.trans_le hult⟩, Or.inl ?_⟩
      exact List.mem_append_right _ (List.mem_append_left _ List.mem_cons_self)
  · refine ⟨hI.naturales.1.trans ultimoPid_efecto, fun p hp => ?_⟩
    cases hantes : k.pcbs p with
    | none =>
      obtain ⟨rfl, -⟩ := nuevo_de_nace hantes hp
      exact hI.naturales.1
    | some b =>
      have hvivo : (k.pcbs p).isSome := by
        rw [hantes]
        rfl
      exact hI.naturales.2 p hvivo
  · intro x hx p t n path hpet
    rcases hC.nuevas x hx with hx | hab
    · exact deTamanio_efecto (hI.pedidos x hx p t n path hpet)
    · exact deTamanio_efecto (abre_fresca hI hg.1 hab hpet).2
  · exact fun p q hq => deTamanio_efecto (hI.tamanios p q hq)
  · exact fun hdef p => vivas_mueve hI ha hg.1 hC hdef

end Kernel

section Atenciones

variable {k : Sistema Kernel Hilo} {m m' : Memoria cfg} {xs : List Conexion} {env : Entorno}
  {pet : Peticion} {envios : List Envio}

theorem perdida_ajena {e : Evento} (ha : accionDe e = none) :
    Perdida (es ++ [e]) p ↔ Perdida es p := by
  rw [perdida_concat, pierde, ha]
  simp

theorem tamanios_atiende (hI : Acuerdo es ⟨k, m, xs⟩) (hfresco : PidFresco m pet)
    (hpide : ∀ p t n path, pet = .initProc p t n path → DeTamanio k.comun p t)
    (hat : atenderPostHandshake env m pet = some (envios, m')) (p : ℤ) (q : Proceso cfg)
    (hq : buscarProceso m'.diccionarioProcesos p = some q) :
    DeTamanio k.comun p q.tamProceso := by
  rcases tamanio_de_atender hI.memoria hfresco hat hq with ⟨r, hr, htam⟩ | ⟨n, path, hpet⟩
  · rw [htam]
    exact hI.tamanios p r hr
  · exact hpide p _ n path hpet

/-- A request of a CPU. -/
theorem acuerdo_accede {e : Evento} (hI : Acuerdo es ⟨k, m, xs⟩) (ha : accionDe e = none)
    (hcpu : deCpu pet = true) (hat : atenderPostHandshake env m pet = some (envios, m')) :
    Acuerdo (es ++ [e]) ⟨k, m', xs⟩ := by
  have hfin : ∀ p, pet ≠ .finalizarProceso p := by
    rintro p rfl
    cases hcpu
  have hcrea : ∀ p t n path, pet ≠ .initProc p t n path := by
    rintro p t n path rfl
    cases hcpu
  have hviva : ∀ p, Viva m' p ↔ Viva m p := by
    intro p
    rw [viva_de_atender hI.memoria hat]
    constructor
    · rintro (⟨h, -⟩ | ⟨⟨t, n, path, h⟩, -⟩)
      · exact h
      · exact absurd h (hcrea p t n path)
    · exact fun h => Or.inl ⟨h, hfin p⟩
  have hfresco : PidFresco m pet := by
    cases pet <;> trivial
  refine ⟨hI.planificador, hI.nuevos, hI.pids, hI.gestor,
    paginas_efecto hI.memoria (efecto_de_atender hI.memoria.pids hat),
    ⟨hI.conexas.esperan, hI.conexas.corresponden⟩, ?_, hI.finalizadas, ?_, ?_, hI.naturales,
    hI.pedidos,
    tamanios_atiende hI hfresco (fun p t n path h => absurd h (hcrea p t n path)) hat, ?_⟩
  · intro x hx hresp
    have hantes := hI.frescas x hx hresp
    cases hpet : x.peticion with
    | initProc p t n path =>
      rw [hpet] at hantes
      exact not_not.mp fun hno => absurd hantes ((hviva p).mp hno)
    | _ => trivial
  · exact fun p h => (perdida_ajena ha).mpr (hI.falladas p h)
  · exact fun p h => hI.perdidas p ((perdida_ajena ha).mp h)
  · intro hdef p
    rw [hviva, perdida_ajena ha, hI.vivas hdef p]
    refine or_congr_left ?_
    exact ⟨fun h => ⟨h.bloque, h.aceptada, h.sigue⟩, fun h => ⟨h.bloque, h.aceptada, h.sigue⟩⟩

/-- The planner has one connection to create a process. -/
theorem otra_no_crea (hI : Acuerdo es ⟨k, m, xs⟩) {i j : ℕ} (hij : i ≠ j) {x y : Conexion}
    (hx : xs[j]? = some x) (hy : xs[i]? = some y) (hhilo : x.hilo = .largoAguarda p false) :
    y.hilo ≠ .largoAguarda p false := by
  intro hotra
  obtain ⟨hlt, hget⟩ := List.getElem?_eq_some_iff.mp hx
  have hperm : (x :: xs.eraseIdx j).Perm xs := hget ▸ List.getElem_cons_eraseIdx_perm hlt
  have hmem : y ∈ xs.eraseIdx j := List.mem_eraseIdx_iff_getElem?.mpr ⟨i, hij, hy⟩
  have hdos := (hperm.map Conexion.hilo).count_eq (.largoAguarda p false)
  have huna : 0 < ((xs.eraseIdx j).map Conexion.hilo).count (.largoAguarda p false) :=
    List.count_pos_iff.mpr (List.mem_map.mpr ⟨y, hmem, hotra⟩)
  have hesperan := hI.conexas.esperan (.largoAguarda p false)
  have hplan : k.hilos.count (.largoAguarda p false) ≤ (k.hilos.filterMap planifica).count () := by
    clear hI hesperan
    obtain ⟨comun, hilos⟩ := k
    dsimp only
    induction hilos with
    | nil => exact le_rfl
    | cons h hs ih =>
      rw [List.count_cons, List.filterMap_cons]
      by_cases heq : h = .largoAguarda p false
      · subst heq
        simpa [planifica] using ih
      · rw [if_neg (by simpa using heq)]
        split
        · exact ih
        · rw [List.count_cons]
          omega
  have hunico := List.nodup_iff_count_le_one.mp hI.planificador.unico ()
  rw [List.map_cons, List.count_cons, hhilo] at hdos
  simp at hdos
  dsimp only at hesperan hunico
  omega

theorem acuerdo_atiende {e : Evento} {j : ℕ} {hilo : Hilo} (hI : Acuerdo es ⟨k, m, xs⟩)
    (ha : accionDe e = none) (hx : xs[j]? = some ⟨hilo, pet, none⟩)
    (hat : atenderPostHandshake env m pet = some (envios, m')) :
    Acuerdo (es ++ [e]) ⟨k, m', xs.set j ⟨hilo, pet, some envios⟩⟩ := by
  have hmem : ⟨hilo, pet, none⟩ ∈ xs := List.mem_of_getElem? hx
  have hfresco : PidFresco m pet := hI.frescas _ hmem rfl
  have hcor : Corresponde hilo pet := hI.conexas.corresponden _ hmem
  have hhilo : hilo ∈ k.hilos := hI.conexas.espera hmem
  have hviva := fun p => viva_de_atender (p := p) hI.memoria hat
  have hset : ∀ {y}, y ∈ xs.set j ⟨hilo, pet, some envios⟩ →
      y ∈ xs ∨ y = ⟨hilo, pet, some envios⟩ := fun hy => List.mem_or_eq_of_mem_set hy
  refine ⟨hI.planificador, hI.nuevos, hI.pids, hI.gestor,
    paginas_efecto hI.memoria (efecto_de_atender hI.memoria.pids hat),
    conexas_atiende hx hI.conexas, ?_, ?_, ?_, ?_, hI.naturales, ?_, ?_, ?_⟩
  · intro y hy hresp
    cases hpet : y.peticion with
    | initProc p t n path =>
      obtain ⟨i, hi⟩ := List.mem_iff_getElem?.mp hy
      have hij : j ≠ i := by
        rintro rfl
        have hnueva : (xs.set j ⟨hilo, pet, some envios⟩)[j]? = some ⟨hilo, pet, some envios⟩ :=
          List.getElem?_set_self (List.getElem?_eq_some_iff.mp hx).1
        cases hi.symm.trans hnueva
        cases hresp
      rw [List.getElem?_set_ne hij] at hi
      have hvieja := List.mem_of_getElem? hi
      have hantes := hI.frescas y hvieja hresp
      have hhilo' : y.hilo = .largoAguarda p false :=
        (crea_iff (hI.conexas.corresponden y hvieja)).mp ⟨t, n, path, hpet⟩
      rw [hpet] at hantes
      refine not_not.mp fun hno => ?_
      rcases (hviva p).mp hno with ⟨h, -⟩ | ⟨hcrea, -⟩
      · exact h hantes
      · exact otra_no_crea hI hij.symm hx hi ((crea_iff hcor).mp hcrea) hhilo'
    | _ => trivial
  · intro y hy p envios' hesp hresp
    rcases hset hy with hy | rfl
    · exact hI.finalizadas y hy p envios' hesp hresp
    · cases hresp
      obtain rfl := (finaliza_iff hcor).mpr hesp
      rw [(finalizar_quita hat).1]
      rfl
  · exact fun p h => (perdida_ajena ha).mpr (hI.falladas p h)
  · exact fun p h => hI.perdidas p ((perdida_ajena ha).mp h)
  · intro y hy p t n path hpet
    rcases hset hy with hy | rfl
    · exact hI.pedidos y hy p t n path hpet
    · exact hI.pedidos _ hmem p t n path hpet
  · exact tamanios_atiende hI hfresco (fun p t n path => hI.pedidos _ hmem p t n path) hat
  · intro hdef p
    have hacep : Aceptada ⟨k, m', xs.set j ⟨hilo, pet, some envios⟩⟩ p ↔
        Aceptada ⟨k, m, xs⟩ p ∨
          hilo = .largoAguarda p false ∧ confirma .initProcesoOk envios = true :=
      contestada_atiende hx
    have hterm : Terminada ⟨k, m', xs.set j ⟨hilo, pet, some envios⟩⟩ p ↔
        Terminada ⟨k, m, xs⟩ p ∨
          hilo = .gestorAguarda p ∧ confirma .finalizacionOk envios = true :=
      contestada_atiende hx
    have hantes := hI.vivas hdef p
    rw [hviva, perdida_ajena ha, crea_iff hcor, ne_eq, finaliza_iff hcor]
    by_cases hfin : hilo = .gestorAguarda p
    · -- Memoria finishes the process
      subst hfin
      obtain rfl := (finaliza_iff hcor).mpr rfl
      have hok : confirma .finalizacionOk envios = true := by
        rw [(finalizar_quita hat).1]
        rfl
      have hno : ¬ Perdida es p := fun h => perdida_sin_pedir hI hdef h hhilo
      have hdebida : ¬ Debida ⟨k, m', xs.set j ⟨.gestorAguarda p, .finalizarProceso p,
          some envios⟩⟩ p := fun h => h.sigue (hterm.mpr (Or.inr ⟨rfl, hok⟩))
      simp [hno, hdebida]
    have hterm' : Terminada ⟨k, m', xs.set j ⟨hilo, pet, some envios⟩⟩ p ↔
        Terminada ⟨k, m, xs⟩ p := hterm.trans (or_iff_left fun h => hfin h.1)
    by_cases hcrea : hilo = .largoAguarda p false ∧ confirma .initProcesoOk envios = true
    · -- Memoria creates the candidate of the planner
      obtain ⟨rfl, hok⟩ := hcrea
      have hnuevo : p ∈ k.comun.colas .new := candidata hI hdef hhilo rfl
      have hdebida : Debida ⟨k, m', xs.set j ⟨.largoAguarda p false, pet, some envios⟩⟩ p := by
        refine ⟨(hI.nuevos.vivos p hnuevo).1, fun _ => hacep.mpr (Or.inr ⟨rfl, hok⟩), fun h => ?_⟩
        obtain ⟨d, hd, hcand, -⟩ := terminada_gestor hI (hterm'.mp h)
        exact (gestor_no_nuevo hI hd hcand).1 hnuevo
      simp [hok, hdebida]
    · have hacep' : Aceptada ⟨k, m', xs.set j ⟨hilo, pet, some envios⟩⟩ p ↔
          Aceptada ⟨k, m, xs⟩ p := hacep.trans (or_iff_left hcrea)
      have hdebida : Debida ⟨k, m', xs.set j ⟨hilo, pet, some envios⟩⟩ p ↔
          Debida ⟨k, m, xs⟩ p :=
        ⟨fun h => ⟨h.bloque, fun hn => hacep'.mp (h.aceptada hn),
            fun ht => h.sigue (hterm'.mpr ht)⟩,
          fun h => ⟨h.bloque, fun hn => hacep'.mpr (h.aceptada hn),
            fun ht => h.sigue (hterm'.mp ht)⟩⟩
      rw [hdebida, ← hantes]
      simp only [hcrea, or_false, and_iff_left_iff_imp]
      exact fun _ => hfin

end Atenciones

section Corridas

theorem acuerdo_paso {e : Evento} (hI : Acuerdo es s) (h : SistemaConjunto.paso c e s = some s') :
    Acuerdo (es ++ [e]) s' := by
  obtain ⟨ker, m, xs⟩ := s
  cases salto_de_paso h with
  | mueve ha hk hg hC =>
    cases hk
    exact acuerdo_mueve hI ha hg hC
  | atiende hx hat => exact acuerdo_atiende hI rfl hx hat
  | accede hcpu hat => exact acuerdo_accede hI rfl hcpu hat

/-- The request that Memoria handles in an event. -/
def pedida (s : Conjunto cfg) : Evento → Option (Entorno × Peticion)
  | .atiende env j =>
    match s.conexiones[j]? with
    | some ⟨_, peticion, none⟩ => some (env, peticion)
    | _ => none
  | .accede env peticion => some (env, peticion)
  | _ => none

/-- The requests that Memoria handles meet a condition. -/
def Respeta (P : Memoria cfg → Entorno → Peticion → Memoria cfg → Prop) (e : Evento)
    (s : Conjunto cfg) : Prop :=
  ∀ env pet envios m', pedida s e = some (env, pet) →
    atenderPostHandshake env s.memoria pet = some (envios, m') → P s.memoria env pet m'

/-- The kernel never asks Memoria to create a process that it keeps. -/
theorem alcanzable_paso {P : Memoria cfg → Entorno → Peticion → Memoria cfg → Prop} {e : Evento}
    (hI : Acuerdo es s) (hA : AlcanzableCon P s.memoria) (hP : Respeta P e s)
    (h : SistemaConjunto.paso c e s = some s') : AlcanzableCon P s'.memoria := by
  cases salto_de_paso h with
  | mueve ha hk hg hC => exact hA
  | @atiende env j hilo pet envios m hx hat =>
    have hpedida : pedida s (.atiende env j) = some (env, pet) := by
      rw [pedida, hx]
    exact hA.paso ⟨env, pet, envios, hI.frescas _ (List.mem_of_getElem? hx) rfl, hat,
      hP env pet envios m hpedida hat⟩
  | @accede env pet envios m hcpu hat =>
    have hfresco : PidFresco s.memoria pet := by
      cases pet <;> trivial
    exact hA.paso ⟨env, pet, envios, hfresco, hat, hP env pet envios m rfl hat⟩

variable (cfg c) (path : List Byte) (tamanio : ℤ) (absoluto : Option (List Byte))

theorem acuerdo_inicial : Acuerdo [] (arranque cfg c path tamanio absoluto) := by
  have hvigilia := vigilia_inicial c path tamanio absoluto
  have hpids : Pids (arranque cfg c path tamanio absoluto).kernel.comun := by
    have hninguno : Pids inicial := by
      constructor
      · intro p b hb
        cases hb
      · intro p _
        rfl
    exact pids_crear hninguno
  obtain ⟨b, hcolas, hpcbs, hult, -⟩ := crear_datos inicial c path tamanio absoluto
  have hunico : ∀ p, ((crearPcb c inicial path tamanio absoluto).pcbs p).isSome →
      p = inicial.ultimoPid := by
    intro p hp
    by_contra hno
    rw [hpcbs, Function.update_of_ne hno] at hp
    cases hp
  refine ⟨hvigilia.planificador, hvigilia.nuevos, hpids, gestor_inicial c path tamanio absoluto,
    paginas_inicial, ⟨?_, ?_⟩, ?_, ?_, ?_, ?_, ⟨?_, ?_⟩, ?_, ?_, ?_⟩
  · exact fun h => Nat.zero_le _
  · exact fun x hx => absurd hx List.not_mem_nil
  · exact fun x hx => absurd hx List.not_mem_nil
  · exact fun x hx => absurd hx List.not_mem_nil
  · intro p h
    have hno : Hilo.gestorLibera p false ∉ [.aceptaCpus, .aceptaIos, .reloj, .largoArranca,
        .cortoEspera, .gestorEspera] := by simp
    exact absurd h hno
  · exact fun p h => absurd h List.not_mem_nil
  · change 0 ≤ (crearPcb c inicial path tamanio absoluto).ultimoPid
    rw [hult]
    decide
  · exact fun p hp => (hunico p hp).ge
  · exact fun x hx => absurd hx List.not_mem_nil
  · exact fun p q hq => by cases hq
  · intro _ p
    constructor
    · exact fun h => absurd rfl h
    · rintro (h | h)
      · have hnuevo : p ∈ (crearPcb c inicial path tamanio absoluto).colas .new := by
          rw [hunico p h.bloque, hcolas, Kernel.colas_agregar, if_pos rfl]
          exact List.mem_append_right _ List.mem_cons_self
        rcases h.aceptada hnuevo with h | ⟨x, hx, -⟩
        · have hno : Hilo.largoResuelve p false true ∉ [.aceptaCpus, .aceptaIos, .reloj,
              .largoArranca, .cortoEspera, .gestorEspera] := by simp
          exact absurd h hno
        · cases hx
      · cases h

theorem acuerdo_corrida (hrun : correr (SistemaConjunto.paso c) es
    (arranque cfg c path tamanio absoluto) = some s) : Acuerdo es s :=
  invariante_historia (I := Acuerdo) (acuerdo_inicial cfg c path tamanio absoluto)
    (fun _ _ _ _ _ hI h => acuerdo_paso hI h) hrun

/-- In every run of both modules, Memoria keeps the processes that the kernel has admitted or
is about to, less those that it has been told to finish, and the ones that were lost; each with
the size of its PCB. -/
theorem vivas_exactas (hrun : correr (SistemaConjunto.paso c) es
    (arranque cfg c path tamanio absoluto) = some s) (hdef : s.kernel.comun.indefinido = false)
    (p : ℤ) : (Viva s.memoria p ↔ Debida s p ∨ Perdida es p) ∧
      ∀ q b, buscarProceso s.memoria.diccionarioProcesos p = some q →
        s.kernel.comun.pcbs p = some b → b.tamanioProceso = q.tamProceso := by
  have hI := acuerdo_corrida cfg c path tamanio absoluto hrun
  exact ⟨hI.vivas hdef p, fun q b hq hb => (hI.tamanios p q hq).2 b hb⟩

/-- A process ends on its CPU, and the gestor cannot connect to Memoria. -/
def hastaPerder : List Accion :=
  hastaEjecutar ++ [.moduloTermina ⟨0, 1, 2, 1, some (1, 0), false, []⟩ 1 .exit,
    .recibeRespuesta 0 0 0 1 .exit, .escuchaAgregaExit 0 0, .escuchaCambiaExit 0 0,
    .escuchaLibera 0, .gestorDespierta, .gestorToma, .gestorFallaConexion 0, .gestorLibera 0 false]

/-- The process has been freed, and Memoria keeps its three pages. -/
theorem vivas_exactas_ejemplo : ∃ s, trasEventos (hastaPerder.flatMap enTurno) = some s ∧
    s.kernel.comun.pcbs 0 = none ∧ Viva s.memoria 0 ∧ ¬ Viva s.memoria 1 := by
  have hobs : (trasEventos (hastaPerder.flatMap enTurno)).map (fun s =>
      (s.kernel.comun.indefinido, (s.kernel.comun.pcbs 0).isNone,
        (s.kernel.comun.pcbs 1).isNone)) = some (false, true, true) := by decide +kernel
  have hperdida : Perdida (agenda configuracion (hastaPerder.flatMap enTurno) arranqueEjemplo) 0 ∧
      ¬ Perdida (agenda configuracion (hastaPerder.flatMap enTurno) arranqueEjemplo) 1 := by
    decide +kernel
  obtain ⟨s, hs, hobs⟩ := Option.map_eq_some_iff.mp hobs
  obtain ⟨hdef, h⟩ := Prod.mk.inj hobs
  obtain ⟨hcero, huno⟩ := Prod.mk.inj h
  refine ⟨s, hs, Option.isNone_iff_eq_none.mp hcero, ?_, fun hviva => ?_⟩
  · exact (vivas_exactas configEjemplo configuracion [65] 10 none hs hdef 0).1.mpr
      (Or.inr hperdida.1)
  · rcases (vivas_exactas configEjemplo configuracion [65] 10 none hs hdef 1).1.mp hviva with h | h
    · have hbloque := h.bloque
      rw [Option.isNone_iff_eq_none.mp huno] at hbloque
      cases hbloque
    · exact hperdida.2 h

/-- In every run of both modules Memoria goes through states that it reaches by its own
protocol, so that what holds of those holds of the system. -/
theorem memoria_alcanzable {P : Memoria cfg → Entorno → Peticion → Memoria cfg → Prop}
    (hC : Cumple (SistemaConjunto.paso c) (Respeta P) es (arranque cfg c path tamanio absoluto))
    (hrun : correr (SistemaConjunto.paso c) es (arranque cfg c path tamanio absoluto) = some s) :
    AlcanzableCon P s.memoria := by
  revert hC
  refine (invariante_historia (I := fun es s => Acuerdo es s ∧
    (Cumple (SistemaConjunto.paso c) (Respeta P) es (arranque cfg c path tamanio absoluto) →
      AlcanzableCon P s.memoria)) ⟨acuerdo_inicial cfg c path tamanio absoluto, fun _ => .inicial⟩
    ?_ hrun).2
  rintro es e s₁ s₂ hrun₁ ⟨hI, hA⟩ h
  refine ⟨acuerdo_paso hI h, fun hC => ?_⟩
  obtain ⟨hantes, hP⟩ := (cumple_concat hrun₁).mp hC
  exact alcanzable_paso hI (hA hantes) hP h

theorem memoria_alcanzable_ejemplo : ∃ s, trasEventos (hastaPerder.flatMap enTurno) = some s ∧
    AlcanzableCon (fun _ _ _ _ => True) s.memoria := by
  have hobs : (trasEventos (hastaPerder.flatMap enTurno)).isSome := by decide +kernel
  obtain ⟨s, hs⟩ := Option.isSome_iff_exists.mp hobs
  refine ⟨s, hs, memoria_alcanzable configEjemplo configuracion [65] 10 none ?_ hs⟩
  exact cumple_siempre (fun _ _ _ _ _ _ _ _ => trivial) _ _

/-- When the kernel has no process left that Memoria knows of, every frame is free. -/
theorem sin_fugas
    (hrun : correr (SistemaConjunto.paso c) es (arranque cfg c path tamanio absoluto) = some s)
    (hdef : s.kernel.comun.indefinido = false)
    (hnada : ∀ p, 0 ≤ p → p < s.kernel.comun.ultimoPid → ¬ Debida s p ∧ ¬ Perdida es p) :
    contarMarcosLibres s.memoria.almacen.bitmapMarcos = cfg.cantidadMarcos := by
  have hI := acuerdo_corrida cfg c path tamanio absoluto hrun
  have hvacia : s.memoria.diccionarioProcesos = [] := by
    refine List.eq_nil_iff_forall_not_mem.mpr fun q hq => ?_
    have hviva : Viva s.memoria q.pid := by
      rw [Viva, viva_iff]
      exact List.mem_map_of_mem hq
    rcases (hI.vivas hdef q.pid).mp hviva with h | h
    · have hlt : q.pid < s.kernel.comun.ultimoPid := by
        by_contra hno
        have hbloque := h.bloque
        rw [hI.pids.nuevos q.pid (not_lt.mp hno)] at hbloque
        cases hbloque
      exact (hnada q.pid (hI.naturales.2 _ h.bloque) hlt).1 h
    · obtain ⟨⟨hcero, hlt⟩, -⟩ := hI.perdidas q.pid h
      exact (hnada q.pid hcero hlt).2 h
  have halcanzable : Alcanzable s.memoria := by
    refine (invariante_historia (I := fun es s => Acuerdo es s ∧ Alcanzable s.memoria)
      ⟨acuerdo_inicial cfg c path tamanio absoluto, .inicial⟩ ?_ hrun).2
    rintro es e s₁ s₂ - ⟨hI, hA⟩ h
    exact ⟨acuerdo_paso hI h, alcanzable_paso hI hA (fun _ _ _ _ _ _ => trivial) h⟩
  have hinv := (invariante_de_alcanzable halcanzable).entradas
  have hlibres := libres_add_duenos hinv.duenosMarcos
  rw [hvacia] at hlibres
  rw [← hinv.bitmap]
  exact hlibres

/-- A process ends on its CPU, and Memoria finishes it. -/
def hastaFinalizar : List Accion :=
  hastaEjecutar ++ [.moduloTermina ⟨0, 1, 2, 1, some (1, 0), false, []⟩ 1 .exit,
    .recibeRespuesta 0 0 0 1 .exit, .escuchaAgregaExit 0 0, .escuchaCambiaExit 0 0,
    .escuchaLibera 0, .gestorDespierta, .gestorToma, .gestorEnvia 0, .gestorRecibe 0 true,
    .gestorLibera 0 true]

theorem sin_fugas_ejemplo : ∃ s, trasEventos (hastaFinalizar.flatMap enTurno) = some s ∧
    contarMarcosLibres s.memoria.almacen.bitmapMarcos = 4 := by
  have hobs : (trasEventos (hastaFinalizar.flatMap enTurno)).map (fun s =>
      (s.kernel.comun.indefinido, (s.kernel.comun.pcbs 0).isNone, s.kernel.comun.ultimoPid)) =
        some (false, true, 1) := by decide +kernel
  have hperdida : ¬ Perdida (agenda configuracion (hastaFinalizar.flatMap enTurno)
      arranqueEjemplo) 0 := by decide +kernel
  obtain ⟨s, hs, hobs⟩ := Option.map_eq_some_iff.mp hobs
  obtain ⟨hdef, h⟩ := Prod.mk.inj hobs
  obtain ⟨hcero, hult⟩ := Prod.mk.inj h
  refine ⟨s, hs, sin_fugas configEjemplo configuracion [65] 10 none hs hdef fun p hp hlt => ?_⟩
  rw [hult] at hlt
  obtain rfl : p = 0 := by omega
  refine ⟨fun h => ?_, hperdida⟩
  have hbloque := h.bloque
  rw [Option.isNone_iff_eq_none.mp hcero] at hbloque
  cases hbloque

end Corridas

end SistemaAcuerdo

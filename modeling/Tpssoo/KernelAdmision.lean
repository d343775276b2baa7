import Tpssoo.KernelLargoPlazo

/-!
# The smallest process first

The long-term planner sleeps on a semaphore that a new process posts only when `cola_new` was
empty. While no process smaller than those that wait is created behind its back, and no
offer fails to reach Memoria, the planner never sleeps over a process that it has not offered.
-/
namespace KernelAdmision

open EnterosC Protocolo KernelEstado KernelFunciones KernelHilos KernelVistas KernelPcbs
open KernelPresentes KernelLargoPlazo Entrelazado Tartamudeo

section Ley

variable (c : ConfigKernel)

def tamanioDe (k : Kernel) (p : ℤ) : ℤ := ((k.pcbs p).map Pcb.tamanioProceso).getD 0

/-- A process of `cola_new` that none is smaller than. -/
def Minimo (k : Kernel) (p : ℤ) : Prop :=
  p ∈ k.colas .new ∧ ∀ q ∈ k.colas .new, tamanioDe k p ≤ tamanioDe k q

/-- Memoria refuses the process that the planner offered from `cola_new`. -/
def Rechaza (p : ℤ) (e : ℕ × Accion) (_ : Sistema Kernel Hilo) : Prop :=
  e.2 = .largoRecibe p false false

/-- The handling of `FINALIZACION_OK` and of `SUSPENSION_OK`. -/
def libera : Accion → Bool
  | .gestorLibera _ true | .suspensionResuelve true => true
  | _ => false

def SinLiberar (e : ℕ × Accion) (_ : Sistema Kernel Hilo) : Prop := libera e.2 = false

/-- The planner waits, with no ticket and no suspended process to admit. -/
structure Dormido (s : Sistema Kernel Hilo) : Prop where
  espera : .largoEspera ∈ s.hilos
  sinTickets : s.comun.semProcesosEnNewOMemoriaLibre = 0
  sinSuspendidos : s.comun.colas .suspendedReady = []
  definido : s.comun.indefinido = false

instance (s : Sistema Kernel Hilo) : Decidable (Dormido s) :=
  decidable_of_iff (.largoEspera ∈ s.hilos ∧ s.comun.semProcesosEnNewOMemoriaLibre = 0 ∧
    s.comun.colas .suspendedReady = [] ∧ s.comun.indefinido = false)
    ⟨fun h => ⟨h.1, h.2.1, h.2.2.1, h.2.2.2⟩, fun h => ⟨h.1, h.2, h.3, h.4⟩⟩

/-- While the planner sleeps, a smallest process of `cola_new` has been refused and no memory
has been released since. -/
def SinOlvidos (es : List (ℕ × Accion)) (s₀ s : Sistema Kernel Hilo) : Prop :=
  Dormido s → s.comun.colas .new ≠ [] →
    ∃ p, Minimo s.comun p ∧ Desde (paso (programa c)) (Rechaza p) SinLiberar es s₀

/-- No process is created smaller than all those that wait while the planner sleeps, none has
been when it goes to sleep, and no offer is lost. -/
def atendida (k : Kernel) (hs : List Hilo) : Accion → Bool
  | .recibeInitProc _ _ _ tamanio _ =>
    decide (.largoEspera ∈ hs → k.semProcesosEnNewOMemoriaLibre = 0 →
      k.colas .suspendedReady = [] → k.colas .new ≠ [] → ∃ q ∈ k.colas .new,
        tamanioDe k q ≤ tamanio)
  | .largoResuelve p false false =>
    decide (k.semProcesosEnNewOMemoriaLibre = 0 → k.colas .suspendedReady = [] →
      ∀ q ∈ k.colas .new, tamanioDe k p ≤ tamanioDe k q)
  | .largoFallaConexion _ false =>
    decide (k.semProcesosEnNewOMemoriaLibre ≠ 0 ∨ k.colas .suspendedReady ≠ [])
  | _ => true

def Atendida (e : ℕ × Accion) (s : Sistema Kernel Hilo) : Prop :=
    atendida s.comun s.hilos e.2 = true

instance (e : ℕ × Accion) (s : Sistema Kernel Hilo) : Decidable (Atendida e s) :=
  inferInstanceAs (Decidable (_ = true))

end Ley

section Nuevos

variable {c : ConfigKernel} {k : Kernel} {l r : List Hilo} {a : Accion}

/-- A process in `cola_new` is alive and nowhere else. -/
structure Nuevos (s : Sistema Kernel Hilo) : Prop where
  presentes : Presentes (fun p => p ∉ s.comun.colas .new ∧ p < s.comun.ultimoPid) s
  vivos : ∀ p ∈ s.comun.colas .new, (s.comun.pcbs p).isSome ∧ p < s.comun.ultimoPid
  nodup : (s.comun.colas .new).Nodup

/-- What a step does to `cola_new`. -/
inductive CambiaNuevos (k k' : Kernel) : Prop where
  | menos (h : (k'.colas .new).Subperm (k.colas .new)) (hn : k.ultimoPid ≤ k'.ultimoPid)
  | mas (h : k'.colas .new = k.colas .new ++ [k.ultimoPid]) (hn : k'.ultimoPid = k.ultimoPid + 1)
      (hp : (k'.pcbs k.ultimoPid).isSome)

theorem cambiaNuevos_efecto : CambiaNuevos k ((programa c).efecto k a) := by
  cases hpl : planifica ((programa c).origen a) with
  | none =>
    by_cases hinit : ∃ cpu fd path tamanio absoluto, a = .recibeInitProc cpu fd path
      tamanio absoluto
    · obtain ⟨cpu, fd, path, tamanio, absoluto, rfl⟩ := hinit
      obtain ⟨e, he⟩ := initProc_igual (c := c) (k := k) cpu fd path tamanio absoluto
      obtain ⟨hnew, -, hult, p, hp, -⟩ := crear_nuevos (c := c)
          (k := recibir k fd) path tamanio absoluto
      rw [he]
      refine .mas hnew hult ?_
      dsimp only
      rw [hp]
      have hself : Function.update (recibir k fd).pcbs k.ultimoPid (some p) k.ultimoPid = some p :=
        Function.update_self _ _ _
      exact (congrArg Option.isSome hself).trans rfl
    · have h := ajena_efecto (k := k) hpl fun cpu fd path tamanio absoluto heq =>
        hinit ⟨cpu, fd, path, tamanio, absoluto, heq⟩
      refine .menos ?_ ultimoPid_efecto
      rw [h.nuevos]
  | some _ =>
    refine .menos ?_ ultimoPid_efecto
    cases a with
    | largoArranca | largoDespierta | largoFallaConexion _ _ | largoRecibe _ _ _ => exact .refl _
    | largoEnvia pcb susp =>
      dsimp only [programa, transicion]
      split <;> exact .refl _
    | largoElige => exact (elegir_colas .new).subperm
    | largoResuelve pcb susp ok =>
      cases ok with
      | false => exact .refl _
      | true =>
        have h := (admitir_colas (c := c) (k := k) pcb susp).1
        have h' : ((programa c).efecto k (.largoResuelve pcb susp true)).colas .new = _ := h
        rw [h']
        split
        · exact .refl _
        · exact (List.tail_sublist _).subperm
    | _ => cases hpl

/-- A process in `cola_new` keeps its block and its size. -/
theorem vivo_efecto (hI : Nuevos ⟨k, l ++ (programa c).origen a :: r⟩) {p : ℤ}
    (hp : p ∈ k.colas .new) : (((programa c).efecto k a).pcbs p).isSome ∧
      tamanioDe ((programa c).efecto k a) p = tamanioDe k p := by
  obtain ⟨hvivo, hult⟩ := hI.vivos p hp
  have hcambio : Cambio _ (vistaPcbs k) (vistaPcbs ((programa c).efecto k a)) p :=
      cambio_efecto c k a
  rcases hcambio with ⟨-, h⟩ | ⟨-, h, h', hm⟩ | ⟨-, hpid, -, -, -, -⟩ | ⟨⟨ok, rfl⟩, -, -⟩
  · have h : ((programa c).efecto k a).pcbs p = k.pcbs p := h
    rw [tamanioDe, tamanioDe, h]
    exact ⟨hvivo, rfl⟩
  · have h : k.pcbs p = some _ := h
    have h' : ((programa c).efecto k a).pcbs p = some _ := h'
    rw [tamanioDe, tamanioDe, h, h']
    exact ⟨rfl, hm.tamanio⟩
  · exact absurd hpid hult.ne
  · exact absurd hp (hI.presentes.origen p List.mem_cons_self).1

theorem nuevos_paso (hI : Nuevos ⟨k, l ++ (programa c).origen a :: r⟩)
    (hpl : Planificador ⟨k, l ++ (programa c).origen a :: r⟩) (hk : k.indefinido = false) :
    Nuevos ⟨(programa c).efecto k a, l ++ ((programa c).destino k a ++ r)⟩ := by
  have hult := ultimoPid_efecto (c := c) (k := k) (a := a)
  have hnodup : (((programa c).efecto k a).colas .new).Nodup ∧
      ∀ p ∈ ((programa c).efecto k a).colas .new, (((programa c).efecto k a).pcbs p).isSome ∧
        p < ((programa c).efecto k a).ultimoPid := by
    rcases cambiaNuevos_efecto (c := c) (k := k) (a := a) with ⟨h, -⟩ | ⟨h, hn, hp⟩
    · refine ⟨?_, fun p hp => ?_⟩
      · obtain ⟨xs, hperm, hsub⟩ := h
        exact hperm.nodup_iff.mp (hsub.nodup hI.nodup)
      · have hp' := h.subset hp
        exact ⟨(vivo_efecto hI hp').1, (hI.vivos p hp').2.trans_le hult⟩
    · rw [h, hn]
      refine ⟨List.nodup_append.mpr ⟨hI.nodup, List.pairwise_singleton _ _, ?_⟩,
        fun p hmem => ?_⟩
      · intro p hp q hq
        rw [List.mem_singleton.mp hq]
        exact (hI.vivos p hp).2.ne
      · rcases List.mem_append.mp hmem with hmem | hmem
        · exact ⟨(vivo_efecto hI hmem).1, (hI.vivos p hmem).2.trans (Int.lt_succ _)⟩
        · rw [List.mem_singleton.mp hmem]
          exact ⟨hp, Int.lt_succ _⟩
  have hpres : ∀ p, p ∉ k.colas .new ∧ p < k.ultimoPid →
      p ∉ ((programa c).efecto k a).colas .new ∧ p < ((programa c).efecto k a).ultimoPid := by
    rintro p ⟨hno, hlt⟩
    refine ⟨fun hp => ?_, hlt.trans_le hult⟩
    rcases cambiaNuevos_efecto (c := c) (k := k) (a := a) with ⟨h, -⟩ | ⟨h, -, -⟩
    · exact hno (h.subset hp)
    · rw [h] at hp
      rcases List.mem_append.mp hp with hp | hp
      · exact hno hp
      · exact absurd (List.mem_singleton.mp hp) hlt.ne
  refine ⟨presentes_paso ⟨?_, ?_, ?_⟩ ?_, hnodup.2, hnodup.1⟩
  · exact fun e he p hp => hpres p (hI.presentes.colas e he p hp)
  · exact fun p hp => hpres p (hI.presentes.cpus p hp)
  · exact fun h hh p hp => hpres p (hI.presentes.hilos h hh p hp)
  · -- the admitted process was the first of `cola_new`
    rintro p rfl
    have hhead : (k.colas .new).head? = some p :=
      hpl.candidato hk _ (List.mem_append_right _ List.mem_cons_self) p false rfl
    have hcola : ((programa c).efecto k (.largoResuelve p false true)).colas .new =
        (k.colas .new).tail := (admitir_colas (c := c) (k := k) p false).1
    obtain ⟨resto, hresto⟩ := List.head?_eq_some_iff.mp hhead
    have hnodup' := hI.nodup
    rw [hcola]
    rw [hresto] at hnodup' ⊢
    refine ⟨(List.nodup_cons.mp hnodup').1, (hI.vivos p ?_).2.trans_le hult⟩
    rw [hresto]
    exact List.mem_cons_self

end Nuevos

section Vigilia

variable {c : ConfigKernel} {s₀ s₁ s₂ : Sistema Kernel Hilo} {es : List (ℕ × Accion)}
  {e : ℕ × Accion} {k : Kernel} {l r : List Hilo} {a : Accion}

/-- What the planner can rely on when it goes to sleep, and what holds while it sleeps. -/
structure Vigilia (c : ConfigKernel) (s₀ : Sistema Kernel Hilo) (es : List (ℕ × Accion))
    (s : Sistema Kernel Hilo) : Prop where
  planificador : Planificador s
  nuevos : Nuevos s
  arranca : .largoArranca ∈ s.hilos → 0 < s.comun.semProcesosEnNewOMemoriaLibre
  rechazado : ∀ p, .largoResuelve p false false ∈ s.hilos →
    0 < s.comun.semProcesosEnNewOMemoriaLibre ∨ s.comun.colas .suspendedReady ≠ [] ∨
      Desde (paso (programa c)) (Rechaza p) SinLiberar es s₀
  ley : SinOlvidos c es s₀ s

theorem libera_tickets (ha : libera a = true)
    (hdef : ((programa c).efecto k a).indefinido = false) :
    0 < ((programa c).efecto k a).semProcesosEnNewOMemoriaLibre := by
  cases a with
  | gestorLibera pcb ok =>
    cases ok with
    | false => cases ha
    | true =>
      dsimp only [programa, transicion] at hdef ⊢
      split at hdef
      · cases hdef
      · next hvivo =>
          rw [if_neg hvivo]
          exact Nat.succ_pos _
  | suspensionResuelve ok =>
    cases ok with
    | false => cases ha
    | true => exact Nat.succ_pos _
  | _ => cases ha

/-- A step of another thread. The law is left to the caller. -/
theorem vigilia_ajena (hrun : correr (paso (programa c)) es s₀ =
    some ⟨k, l ++ (programa c).origen a :: r⟩)
    (hI : Vigilia c s₀ es ⟨k, l ++ (programa c).origen a :: r⟩) (hk : k.indefinido = false)
    (hdef : ((programa c).efecto k a).indefinido = false)
    (hpl : planifica ((programa c).origen a) = none)
    (hley : SinOlvidos c (es ++ [(l.length, a)]) s₀
      ⟨(programa c).efecto k a, l ++ ((programa c).destino k a ++ r)⟩) :
    Vigilia c s₀ (es ++ [(l.length, a)])
      ⟨(programa c).efecto k a, l ++ ((programa c).destino k a ++ r)⟩ := by
  obtain ⟨hsusp, htick⟩ := suspendidos_ajenos (k := k) hpl
  have hviejo : ∀ h ∈ l ++ ((programa c).destino k a ++ r), planifica h = some () →
      h ∈ l ++ (programa c).origen a :: r := by
    intro h hmem hh
    simp only [List.mem_append, List.mem_cons] at hmem ⊢
    rcases hmem with hmem | hmem | hmem
    · exact Or.inl hmem
    · rw [planifica_destino hpl h hmem] at hh
      cases hh
    · exact Or.inr (Or.inr hmem)
  refine ⟨planificador_paso hI.planificador hk, nuevos_paso hI.nuevos hI.planificador hk,
    fun hmem => ?_, fun p hmem => ?_, hley⟩
  · exact (hI.arranca (hviejo _ hmem rfl)).trans_le htick
  · rcases hI.rechazado p (hviejo _ hmem rfl) with h | h | h
    · exact Or.inl (h.trans_le htick)
    · refine Or.inr (Or.inl fun hvacia => h ?_)
      have hvacia : ((programa c).efecto k a).colas .suspendedReady = [] := hvacia
      rw [hvacia] at hsusp
      exact List.prefix_nil.mp hsusp
    · cases hlib : libera a with
      | true => exact Or.inl (libera_tickets hlib hdef)
      | false => exact Or.inr (Or.inr (h.sigue hrun hlib))

/-- The law after a step of another thread. -/
theorem ley_ajena (hrun : correr (paso (programa c)) es s₀ =
    some ⟨k, l ++ (programa c).origen a :: r⟩)
    (hI : Vigilia c s₀ es ⟨k, l ++ (programa c).origen a :: r⟩) (hk : k.indefinido = false)
    (hdef : ((programa c).efecto k a).indefinido = false)
    (hpl : planifica ((programa c).origen a) = none)
    (hnuevos : ∀ p, Dormido ⟨k, l ++ (programa c).origen a :: r⟩ → Minimo k p →
      Minimo ((programa c).efecto k a) p)
    (hvacia : k.colas .new = [] → ((programa c).efecto k a).colas .new = [] ∨
      0 < ((programa c).efecto k a).semProcesosEnNewOMemoriaLibre) :
    SinOlvidos c (es ++ [(l.length, a)]) s₀
      ⟨(programa c).efecto k a, l ++ ((programa c).destino k a ++ r)⟩ := by
  obtain ⟨hsusp, htick⟩ := suspendidos_ajenos (k := k) hpl
  rintro ⟨hesp, hsin, hsinsusp, -⟩ hnovacia
  have hsin : ((programa c).efecto k a).semProcesosEnNewOMemoriaLibre = 0 := hsin
  have hsinsusp : ((programa c).efecto k a).colas .suspendedReady = [] := hsinsusp
  have hantes : Dormido ⟨k, l ++ (programa c).origen a :: r⟩ := by
    refine ⟨?_, ?_, ?_, hk⟩
    · simp only [List.mem_append, List.mem_cons] at hesp ⊢
      rcases hesp with hesp | hesp | hesp
      · exact Or.inl hesp
      · have hno := planifica_destino hpl _ hesp
        cases hno
      · exact Or.inr (Or.inr hesp)
    · exact Nat.le_zero.mp (hsin ▸ htick)
    · rw [hsinsusp] at hsusp
      exact List.prefix_nil.mp hsusp
  have hnueva : k.colas .new ≠ [] := by
    intro h
    rcases hvacia h with h | h
    · exact hnovacia h
    · exact absurd hsin h.ne'
  obtain ⟨p, hmin, hdesde⟩ := hI.ley hantes hnueva
  refine ⟨p, hnuevos p hantes hmin, hdesde.sigue hrun ?_⟩
  cases hlib : libera a with
  | true => exact absurd hsin (libera_tickets hlib hdef).ne'
  | false => exact hlib

theorem vigilia_otro (hrun : correr (paso (programa c)) es s₀ =
    some ⟨k, l ++ (programa c).origen a :: r⟩)
    (hI : Vigilia c s₀ es ⟨k, l ++ (programa c).origen a :: r⟩) (hk : k.indefinido = false)
    (hdef : ((programa c).efecto k a).indefinido = false)
    (hC : Atendida (l.length, a) ⟨k, l ++ (programa c).origen a :: r⟩)
    (hpl : planifica ((programa c).origen a) = none) :
    Vigilia c s₀ (es ++ [(l.length, a)])
      ⟨(programa c).efecto k a, l ++ ((programa c).destino k a ++ r)⟩ := by
  by_cases hinit : ∃ cpu fd path tamanio absoluto, a = .recibeInitProc cpu fd path tamanio absoluto
  · obtain ⟨cpu, fd, path, tamanio, absoluto, rfl⟩ := hinit
    obtain ⟨e, he⟩ := initProc_igual (c := c) (k := k) cpu fd path tamanio absoluto
    have hcrea : (crearPcb c (recibir k fd) path tamanio absoluto).colas .new =
        k.colas .new ++ [k.ultimoPid] ∧ _ := crear_nuevos path tamanio absoluto
    obtain ⟨hnew, hsusp, -, p', hp', htam⟩ := hcrea
    have htick : k.semProcesosEnNewOMemoriaLibre ≤ _ ∧ (k.colas .new = [] → _) :=
      crear_tickets (c := c) (k := recibir k fd) path tamanio absoluto
    refine vigilia_ajena hrun hI hk hdef hpl
      (ley_ajena hrun hI hk hdef hpl (fun p hdor hmin => ?_) fun hvacia => ?_)
    · -- the new process is not smaller than all the others
      have hcond := of_decide_eq_true hC hdor.espera hdor.sinTickets hdor.sinSuspendidos
        (List.ne_nil_of_mem hmin.1)
      obtain ⟨q, hq, hqtam⟩ := hcond
      have hp := (vivo_efecto hI.nuevos hmin.1).2
      have hnueva : tamanioDe ((programa c).efecto k
          (.recibeInitProc cpu fd path tamanio absoluto)) k.ultimoPid = tamanio := by
        have hself : Function.update (recibir k fd).pcbs k.ultimoPid (some p') k.ultimoPid =
          some p' := Function.update_self _ _ _
        have hpcbs : ((programa c).efecto k (.recibeInitProc cpu fd path tamanio absoluto)).pcbs =
            Function.update (recibir k fd).pcbs k.ultimoPid (some p') := by
          rw [he]
          exact hp'
        rw [tamanioDe, hpcbs, hself]
        exact htam
      have hcolas : ((programa c).efecto k
          (.recibeInitProc cpu fd path tamanio absoluto)).colas .new =
          k.colas .new ++ [k.ultimoPid] := by
        rw [he]
        exact hnew
      refine ⟨?_, fun x hx => ?_⟩
      · rw [hcolas]
        exact List.mem_append_left _ hmin.1
      · rw [hp]
        rw [hcolas] at hx
        rcases List.mem_append.mp hx with hx | hx
        · rw [(vivo_efecto hI.nuevos hx).2]
          exact hmin.2 x hx
        · rw [List.mem_singleton.mp hx, hnueva]
          exact (hmin.2 q hq).trans hqtam
    · right
      rw [he]
      exact htick.2 hvacia
  · have haj := ajena_efecto (k := k) hpl fun cpu fd path tamanio absoluto heq =>
      hinit ⟨cpu, fd, path, tamanio, absoluto, heq⟩
    refine vigilia_ajena hrun hI hk hdef hpl
      (ley_ajena hrun hI hk hdef hpl (fun p _ hmin => ?_) fun hvacia => ?_)
    · refine ⟨?_, fun x hx => ?_⟩
      · rw [haj.nuevos]
        exact hmin.1
      · rw [haj.nuevos] at hx
        rw [(vivo_efecto hI.nuevos hmin.1).2, (vivo_efecto hI.nuevos hx).2]
        exact hmin.2 x hx
    · left
      rw [haj.nuevos]
      exact hvacia

/-- A step of the planner, which leaves it at one point. -/
theorem vigilia_propia (hI : Vigilia c s₀ es ⟨k, l ++ (programa c).origen a :: r⟩)
    (hk : k.indefinido = false) (hpl : planifica ((programa c).origen a) = some ()) {d : Hilo}
    (hd : (programa c).destino k a = [d])
    (harr : d ≠ .largoArranca)
    (hrech : ∀ p, d = .largoResuelve p false false →
      0 < ((programa c).efecto k a).semProcesosEnNewOMemoriaLibre ∨
        ((programa c).efecto k a).colas .suspendedReady ≠ [] ∨
        Desde (paso (programa c)) (Rechaza p) SinLiberar (es ++ [(l.length, a)]) s₀)
    (hley : d = .largoEspera → ((programa c).efecto k a).semProcesosEnNewOMemoriaLibre = 0 →
      ((programa c).efecto k a).colas .suspendedReady = [] →
      ((programa c).efecto k a).colas .new ≠ [] →
      ∃ p, Minimo ((programa c).efecto k a) p ∧
        Desde (paso (programa c)) (Rechaza p) SinLiberar (es ++ [(l.length, a)]) s₀) :
    Vigilia c s₀ (es ++ [(l.length, a)])
      ⟨(programa c).efecto k a, l ++ ((programa c).destino k a ++ r)⟩ := by
  have hsolo := solo_planifica hI.planificador hpl
  have hes : ∀ h ∈ l ++ ((programa c).destino k a ++ r), planifica h = some () → h = d := by
    intro h hmem hh
    rw [hd] at hmem
    simp only [List.mem_append, List.mem_singleton] at hmem
    rcases hmem with hmem | hmem | hmem
    · rw [hsolo h (List.mem_append_left _ hmem)] at hh
      cases hh
    · exact hmem
    · rw [hsolo h (List.mem_append_right _ hmem)] at hh
      cases hh
  refine ⟨planificador_paso hI.planificador hk, nuevos_paso hI.nuevos hI.planificador hk,
    fun hmem => ?_, fun p hmem => ?_, ?_⟩
  · exact absurd (hes _ hmem rfl).symm harr
  · exact hrech p (hes _ hmem rfl).symm
  · rintro ⟨hesp, hsin, hsinsusp, -⟩ hnovacia
    exact hley (hes _ hesp rfl).symm hsin hsinsusp hnovacia

theorem cola_no_vacia (h : (ordenLargoPlazo c k (colaAAdmitir k)).head? = none) :
    k.colas .new = [] := by
  have hvacia : k.colas (colaAAdmitir k) = [] :=
    List.perm_nil.mp (List.head?_eq_none_iff.mp h ▸ (ordenLargoPlazo_perm _).symm)
  rw [colaAAdmitir] at hvacia
  split at hvacia
  · exact hvacia
  · next h => exact absurd (List.isEmpty_iff.mpr hvacia) h

/-- The candidate of `planificador_largo_plazo_proceso_mas_chico_primero` is a smallest process
when it is chosen: only an arrival during the call to Memoria may be smaller. -/
theorem elegido_minimo (hpmcp : c.algoritmoLargoPlazo = .pmcp)
    (hvivos : Vivos k (k.colas .new)) {p : ℤ}
    (h : (ordenLargoPlazo c k .new).head? = some p) : Minimo k p := by
  refine ⟨(ordenLargoPlazo_perm _).subset (List.mem_of_mem_head? h), ?_⟩
  rw [ordenLargoPlazo, hpmcp] at h
  refine listSort_cabeza (fun x hx y hy => ?_) h
  obtain ⟨px, hpx⟩ := Option.isSome_iff_exists.mp (hvivos x hx)
  obtain ⟨py, hpy⟩ := Option.isSome_iff_exists.mp (hvivos y hy)
  rw [porPcb, tamanioDe, tamanioDe, hpx, hpy]
  exact decide_eq_true_iff

theorem vigilia_planificador
    (hrun : correr (paso (programa c)) es s₀ = some ⟨k, l ++ (programa c).origen a :: r⟩)
    (hI : Vigilia c s₀ es ⟨k, l ++ (programa c).origen a :: r⟩)
    (hp : paso (programa c) (l.length, a) ⟨k, l ++ (programa c).origen a :: r⟩ = some s₂)
    (hk : k.indefinido = false) (hC : Atendida (l.length, a) ⟨k, l ++ (programa c).origen a :: r⟩)
    (hpl : planifica ((programa c).origen a) = some ()) :
    Vigilia c s₀ (es ++ [(l.length, a)])
      ⟨(programa c).efecto k a, l ++ ((programa c).destino k a ++ r)⟩ := by
  have hmem : (programa c).origen a ∈ l ++ (programa c).origen a :: r :=
    List.mem_append_right _ List.mem_cons_self
  cases a with
  | largoArranca =>
    refine vigilia_propia hI hk hpl rfl nofun nofun fun _ hsin => ?_
    exact absurd hsin (hI.arranca hmem).ne'
  | largoDespierta => exact vigilia_propia hI hk hpl rfl nofun nofun nofun
  | largoElige =>
    dsimp only [programa, transicion] at hmem
    cases hhead : (ordenLargoPlazo c k (colaAAdmitir k)).head? with
    | none =>
      refine vigilia_propia (d := .largoEspera) hI hk hpl ?_ nofun nofun fun _ _ _ hno => ?_
      · dsimp only [programa, transicion]
        rw [hhead]
      · refine absurd ?_ hno
        have hperm : (((programa c).efecto k .largoElige).colas .new).Perm (k.colas .new) :=
          elegir_colas .new
        rw [cola_no_vacia hhead] at hperm
        exact List.perm_nil.mp hperm
    | some pcb =>
      refine vigilia_propia (d := .largoPide pcb (colaAAdmitir k = .suspendedReady)) hI hk hpl ?_
        nofun nofun nofun
      dsimp only [programa, transicion]
      rw [hhead]
  | largoFallaConexion pcb susp =>
    refine vigilia_propia (d := .largoResuelve pcb susp false) hI hk hpl rfl nofun ?_ nofun
    intro p heq
    cases heq
    rcases of_decide_eq_true hC with h | h
    · exact Or.inl (Nat.pos_of_ne_zero h)
    · exact Or.inr (Or.inl h)
  | largoEnvia pcb susp =>
    exact vigilia_propia (d := .largoAguarda pcb susp) hI hk hpl rfl nofun nofun nofun
  | largoRecibe pcb susp ok =>
    refine vigilia_propia (d := .largoResuelve pcb susp ok) hI hk hpl rfl nofun ?_ nofun
    intro p heq
    cases heq
    exact Or.inr (Or.inr (Desde.aqui hrun rfl hp))
  | largoResuelve pcb susp ok =>
    cases ok with
    | true => exact vigilia_propia hI hk hpl rfl nofun nofun nofun
    | false =>
      refine vigilia_propia hI hk hpl rfl nofun nofun fun _ hsin hsinsusp hno => ?_
      cases susp with
      | true =>
        have hhead : (k.colas .suspendedReady).head? = some pcb :=
          hI.planificador.candidato hk _ hmem pcb true rfl
        rw [show k.colas .suspendedReady = [] from hsinsusp] at hhead
        cases hhead
      | false =>
        have hhead : (k.colas .new).head? = some pcb := hI.planificador.candidato hk _ hmem
            pcb false rfl
        have hmin : ∀ q ∈ k.colas .new, tamanioDe k pcb ≤ tamanioDe k q :=
          of_decide_eq_true hC hsin hsinsusp
        refine ⟨pcb, ⟨List.mem_of_mem_head? hhead, hmin⟩, ?_⟩
        rcases hI.rechazado pcb hmem with h | h | h
        · exact absurd hsin h.ne'
        · exact absurd hsinsusp h
        · exact h.sigue hrun rfl
  | _ => cases hpl

theorem vigilia_paso (hrun : correr (paso (programa c)) es s₀ = some s₁) (hI : Vigilia c s₀ es s₁)
    (hC : Atendida e s₁) (hp : paso (programa c) e s₁ = some s₂)
    (hdef : s₂.comun.indefinido = false) : Vigilia c s₀ (es ++ [e]) s₂ := by
  have hp' := hp
  obtain ⟨l, r, hhilos, hl, hguarda, rfl⟩ := paso_casos hp
  obtain ⟨k, hs⟩ := s₁
  obtain ⟨i, a⟩ := e
  cases hhilos
  cases hl
  cases hpl : planifica ((programa c).origen a) with
  | none => exact vigilia_otro hrun hI hguarda.1 hdef hC hpl
  | some u => exact vigilia_planificador hrun hI hp' hguarda.1 hC hpl

variable (c) (path : List Byte) (tamanio : ℤ) (absoluto : Option (List Byte))

theorem vigilia_inicial : Vigilia c (arranque c path tamanio absoluto) []
    (arranque c path tamanio absoluto) := by
  have hcrea := crear_nuevos (c := c) (k := inicial) path tamanio absoluto
  obtain ⟨hnew, hsusp, hult, p, hp, -⟩ := hcrea
  have htick := (crear_tickets (c := c) (k := inicial) path tamanio absoluto).2 rfl
  have hcpus := (enviados_crearPcb c inicial path tamanio absoluto).2
  have hnew : (arranque c path tamanio absoluto).comun.colas .new = [0] := hnew
  have hult : (arranque c path tamanio absoluto).comun.ultimoPid = 1 := hult
  have hotra : ∀ e, e ≠ .new → (arranque c path tamanio absoluto).comun.colas e = [] := fun e he =>
    Function.update_of_ne he _ _
  refine ⟨planificador_inicial c path tamanio absoluto,
    ⟨⟨fun e he q hq => ?_, fun q hq => ?_, ?_⟩, fun q hq => ?_, ?_⟩, ?_, ?_, ?_⟩
  · rw [hotra e he] at hq
    cases hq
  · obtain ⟨cpu, hcpu⟩ := hq
    rw [arranque, hcpus] at hcpu
    cases hcpu
  · simp [arranque, nombra]
  · rw [hnew] at hq
    rw [hult, List.mem_singleton.mp hq]
    have hself : (arranque c path tamanio absoluto).comun.pcbs 0 = some p := by
      rw [arranque, hp]
      exact Function.update_self _ _ _
    exact ⟨hself ▸ rfl, by decide⟩
  · rw [hnew]
    exact List.pairwise_singleton _ _
  · exact fun _ => htick
  · simp [arranque]
  · rintro ⟨-, hsin, -, -⟩
    exact absurd hsin htick.ne'

/-- In a run that attends to each arrival, the planner sleeps over no process that it has not
offered since the last release of memory. -/
theorem sin_olvidos {s : Sistema Kernel Hilo}
    (hC : Cumple (paso (programa c)) Atendida es (arranque c path tamanio absoluto))
    (hrun : correr (paso (programa c)) es (arranque c path tamanio absoluto) = some s) :
    SinOlvidos c es (arranque c path tamanio absoluto) s := by
  intro hdor
  refine Vigilia.ley ?_ hdor
  have hdef := hdor.definido
  clear hdor
  revert hC hdef
  refine invariante_historia (I := fun es s =>
    Cumple (paso (programa c)) Atendida es (arranque c path tamanio absoluto) →
      s.comun.indefinido = false → Vigilia c (arranque c path tamanio absoluto) es s)
    (fun _ _ => vigilia_inicial c path tamanio absoluto) ?_ hrun
  intro es e s₁ s₂ hrun hI hp hC hdef
  obtain ⟨hC, he⟩ := (cumple_concat hrun).mp hC
  exact vigilia_paso hrun (hI hC (paso_guarda hp).1) he hp hdef

end Vigilia

section Corridas

def configuracionPmcp : ConfigKernel := ⟨.fifo, .pmcp, 100, 0, 50⟩

/-- The process in execution creates another, which Memoria refuses. -/
def hastaRechazar : List Accion :=
  hastaEjecutar ++ [.largoElige, .moduloInitProc ⟨0, 1, 2, 1, some (1, 0), false, []⟩ [66] 100,
    .recibeInitProc 0 0 [66] 100 none, .largoDespierta, .largoElige, .largoEnvia 1 false,
    .largoRecibe 1 false false, .largoResuelve 1 false false]

theorem dormido_de_observar {acciones : List Accion} {nuevos : List ℤ} {uno dos : ℤ}
    (h : (tras configuracionPmcp acciones).map (fun s =>
      (decide (Dormido s), s.comun.colas .new, tamanioDe s.comun 1, tamanioDe s.comun 2)) =
      some (true, nuevos, uno, dos)) :
    ∃ s, tras configuracionPmcp acciones = some s ∧ Dormido s ∧ s.comun.colas .new = nuevos ∧
      tamanioDe s.comun 1 = uno ∧ tamanioDe s.comun 2 = dos := by
  obtain ⟨s, hs, hobs⟩ := Option.map_eq_some_iff.mp h
  simp only [Prod.mk.injEq, decide_eq_true_eq] at hobs
  obtain ⟨hdor, hnew, huno, hdos⟩ := hobs
  exact ⟨s, hs, hdor, hnew, huno, hdos⟩

theorem sin_olvidos_ejemplo : ∃ s, tras configuracionPmcp hastaRechazar = some s ∧ Dormido s ∧
    s.comun.colas .new = [1] ∧
    SinOlvidos configuracionPmcp
      (agenda (programa configuracionPmcp) hastaRechazar (arranque configuracionPmcp [65] 10 none))
      (arranque configuracionPmcp [65] 10 none) s := by
  have hrun : ∃ s, tras configuracionPmcp hastaRechazar = some s ∧ Dormido s ∧
      s.comun.colas .new = [1] ∧ tamanioDe s.comun 1 = 100 ∧ tamanioDe s.comun 2 = 0 :=
    dormido_de_observar (by decide +kernel)
  have hC : Cumple (paso (programa configuracionPmcp)) Atendida
      (agenda (programa configuracionPmcp) hastaRechazar (arranque configuracionPmcp [65] 10 none))
      (arranque configuracionPmcp [65] 10 none) := by decide +kernel
  obtain ⟨s, hs, hdor, hnew, -⟩ := hrun
  exact ⟨s, hs, hdor, hnew, sin_olvidos configuracionPmcp [65] 10 none hC hs⟩

/-- It then creates a smaller one. -/
def hastaOlvidar : List Accion :=
  hastaRechazar ++ [.moduloLee ⟨0, 1, 2, 1, some (1, 0), true, []⟩,
    .moduloInitProc ⟨0, 1, 3, 1, some (1, 0), false, []⟩ [67] 5, .recibeInitProc 0 0 [67] 5 none]

/-- The planner sleeps over a process that fits in the free memory, for all it knows. -/
theorem duerme_sin_ofrecer : ∃ s, tras configuracionPmcp hastaOlvidar = some s ∧
    ¬ SinOlvidos configuracionPmcp
      (agenda (programa configuracionPmcp) hastaOlvidar (arranque configuracionPmcp [65] 10 none))
      (arranque configuracionPmcp [65] 10 none) s := by
  have hrun : ∃ s, tras configuracionPmcp hastaOlvidar = some s ∧ Dormido s ∧
      s.comun.colas .new = [1, 2] ∧ tamanioDe s.comun 1 = 100 ∧ tamanioDe s.comun 2 = 5 :=
    dormido_de_observar (by decide +kernel)
  have hsin : ∀ e ∈ agenda (programa configuracionPmcp) hastaOlvidar
      (arranque configuracionPmcp [65] 10 none), e.2 ≠ .largoRecibe 2 false
        false := by decide +kernel
  obtain ⟨s, hs, hdor, hnew, huno, hdos⟩ := hrun
  refine ⟨s, hs, fun hley => ?_⟩
  obtain ⟨p, ⟨hmem, hmin⟩, es₁, e, es₂, _, _, heq, -, hrech, -⟩ :=
    hley hdor (by rw [hnew]; exact List.cons_ne_nil _ _)
  rw [hnew] at hmem hmin
  have hdos' := hmin 2 (List.mem_cons_of_mem _ List.mem_cons_self)
  have hp : p = 2 := by
    rcases List.mem_cons.mp hmem with rfl | hmem
    · omega
    · exact List.mem_singleton.mp hmem
  subst hp
  refine hsin e ?_ hrech
  rw [heq]
  exact List.mem_append_right _ List.mem_cons_self

end Corridas

end KernelAdmision

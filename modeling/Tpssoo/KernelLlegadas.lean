import Tpssoo.KernelSrt

/-!
# Arrivals to `cola_ready`

A process that comes to `cola_ready` waits for one more CPU. When the check of SRT interrupts a
CPU that was going to stay there is one more, and otherwise nobody stays for longer than its
estimate.
-/
namespace KernelLlegadas

open EnterosC Protocolo KernelEstado KernelFunciones KernelHilos KernelVistas KernelPcbs
open KernelPresentes KernelLargoPlazo KernelSaludos KernelInterrupciones KernelCpus
open KernelEjecucion KernelDesalojo KernelRafagas KernelSalientes KernelSrt Cobertura
open Entrelazado

/-- The CPUs that will be free suffice for the checked processes with smaller estimates than the
remaining time of one that stays in execution. -/
def Cubierto (s : Sistema Kernel Hilo) : Prop :=
  Cubierta (esperan s) (lugares s) {t | t ∈ quedan s}

section Espera

variable {c : ConfigKernel} {k : Kernel} {l r : List Hilo} {a : Accion} {p : ℤ} {x : ℚ}
  {s : Sistema Kernel Hilo} {ready : List ℤ}

theorem estimacionDe_eq_some : estimacionDe s p = some x ↔
    p ∉ s.hilos.filterMap evaluaraDe ∧ ∃ y, s.comun.pcbs p = some y ∧ y.estimacionRafaga = x := by
  rw [estimacionDe]
  split
  · next h =>
      constructor
      · intro h'
        cases h'
      · rintro ⟨hno, -⟩
        exact absurd h hno
  · next h => exact Option.map_eq_some_iff.trans ⟨fun hy => ⟨h, hy⟩, And.right⟩

theorem estimacionDe_conserva {s' : Sistema Kernel Hilo}
    (hev : p ∈ s.hilos.filterMap evaluaraDe → p ∈ s'.hilos.filterMap evaluaraDe)
    (hcons : Conserva (vistaPcbs s.comun) (vistaPcbs s'.comun) p)
    (h : estimacionDe s' p = some x) : estimacionDe s p = some x := by
  obtain ⟨hno, y', hy', rfl⟩ := estimacionDe_eq_some.mp h
  obtain ⟨y, hy, hest, -⟩ := hcons y' hy'
  exact estimacionDe_eq_some.mpr ⟨fun h => hno (hev h), y, hy, hest.symm⟩

/-- The threads that are to check a process keep it, unless they check it in this step. -/
theorem evaluara_sigue (ha : ∀ d, a ≠ .escuchaDesaloja d p)
    (h : p ∈ (l ++ (programa c).origen a :: r).filterMap evaluaraDe) :
    p ∈ (l ++ ((programa c).destino k a ++ r)).filterMap evaluaraDe := by
  obtain ⟨d, hd, hp⟩ := List.mem_filterMap.mp h
  by_cases ho : d = (programa c).origen a
  · subst ho
    have hdestino : p ∈ ((programa c).destino k a).filterMap evaluaraDe := by
      cases a with
      | escuchaDesaloja d q =>
        cases hp
        exact absurd rfl (ha d)
      | escuchaAgregaReady d q => cases hp
      | _ =>
        rw [evaluara_destino fun d pcb => ⟨by simp, by simp⟩]
        exact List.mem_filterMap.mpr ⟨_, List.mem_singleton_self _, hp⟩
    rw [List.filterMap_append, List.filterMap_append]
    exact List.mem_append_right _ (List.mem_append_left _ hdestino)
  · refine List.mem_filterMap.mpr ⟨d, ?_, hp⟩
    simp only [List.mem_append, List.mem_cons] at hd ⊢
    tauto

variable (hA : Asignados ⟨k, l ++ (programa c).origen a :: r⟩) (hcorto : a ≠ .cortoPlanifica)
  (hready : ∀ q ∈ ready, ∀ d, a ≠ .escuchaDesaloja d q) (hsub : ready.Sublist (k.colas .ready))

include hA hcorto hready hsub

theorem espera_conserva : ∀ q ∈ ready, ∀ x,
    estimacionDe ⟨(programa c).efecto k a, l ++ ((programa c).destino k a ++ r)⟩ q = some x →
      estimacionDe ⟨k, l ++ (programa c).origen a :: r⟩ q = some x := by
  intro q hq x h
  exact estimacionDe_conserva (evaluara_sigue (hready q hq))
    (ready_conserva hA hcorto (hsub.subset hq)) h

/-- No process has come to wait. -/
theorem espera_igual (h : (((programa c).efecto k a).colas .ready).Perm ready) (t : ℚ) :
    menores (esperan ⟨(programa c).efecto k a, l ++ ((programa c).destino k a ++ r)⟩) t ≤
      menores (esperan ⟨k, l ++ (programa c).origen a :: r⟩) t := by
  rw [esperan, menores_perm (h.filterMap _)]
  exact (menores_filterMap (espera_conserva hA hcorto hready hsub) t).trans
    (menores_sublist (hsub.filterMap _))

/-- One process has come to wait. -/
theorem espera_llega {pcb : Pcb} (h : (((programa c).efecto k a).colas .ready).Perm (p :: ready))
    (hcons : Conserva (vistaPcbs k) (vistaPcbs ((programa c).efecto k a)) p)
    (hp : k.pcbs p = some pcb) (t : ℚ) :
    menores (esperan ⟨(programa c).efecto k a, l ++ ((programa c).destino k a ++ r)⟩) t ≤
      menores (pcb.estimacionRafaga :: esperan ⟨k, l ++ (programa c).origen a :: r⟩) t := by
  have hestimacion : ∀ x, estimacionDe
      ⟨(programa c).efecto k a, l ++ ((programa c).destino k a ++ r)⟩ p = some x →
      x = pcb.estimacionRafaga := by
    intro x hx
    obtain ⟨-, y', hy', rfl⟩ := estimacionDe_eq_some.mp hx
    obtain ⟨y, hy, hest, -⟩ := hcons y' hy'
    cases hp.symm.trans hy
    exact hest
  exact (menores_filterMap_uno h hestimacion (espera_conserva hA hcorto hready hsub) t).trans
    (menores_sublist ((hsub.filterMap _).cons_cons _))

end Espera

section Evaluacion

variable {c : ConfigKernel} {k k₀ : Kernel} {l r : List Hilo} {a : Accion} {cpu : ℕ} {pcb : ℤ}
  {p p₀ : Pcb}

/-- The check of SRT sees the CPUs and the bursts of before the arrival. -/
structure Evaluado (k k₀ : Kernel) : Prop where
  cpus : k₀.cpus = k.cpus
  lista : k₀.listaCpus = k.listaCpus
  enviados : k₀.enviados = k.enviados
  restante : restante k₀ = restante k

theorem evaluado_cambiarEstado (q : ℤ) (e : Estado) (hcpus : k₀.cpus = k.cpus)
    (hlista : k₀.listaCpus = k.listaCpus) (henviados : k₀.enviados = k.enviados)
    (hreloj : k₀.reloj = k.reloj)
    (hpcbs : k₀.pcbs = Function.update k.pcbs q ((k.pcbs q).map (Pcb.cambiarEstado k.reloj e))) :
    Evaluado k k₀ := by
  refine ⟨hcpus, hlista, henviados, restante_congr hcpus hreloj fun pcb => ?_⟩
  rw [hpcbs]
  by_cases h : pcb = q
  · subst h
    rw [Function.update_self, Option.map_map]
    congr 1
    funext x
    exact restante_cambiarEstado _ _ e x
  · rw [Function.update_of_ne h]

/-- The module of an interrupted CPU has an interrupt on its way. -/
theorem saliente_interrumpida (hI : Enlaces ⟨k, l ++ (programa c).origen a :: r⟩)
    (hal : Alcanzable ⟨k, l ++ (programa c).origen a :: r⟩ cpu)
    (ho : conexionesDe ((programa c).origen a) = none)
    (hcpus : ((programa c).efecto k a).cpus = k.cpus)
    (henviado : ∀ fd, (k.cpus cpu).socketInterrupt = some fd → ∃ d i,
      ((programa c).efecto k a).enviados (.interrupt fd) =
        k.enviados (.interrupt fd) ++ [.procesoInterrupcion d i]) :
    Saliente ⟨(programa c).efecto k a, l ++ ((programa c).destino k a ++ r)⟩ cpu := by
  obtain ⟨h, hh, x, hx, hdispatch, hinterrupt⟩ := hal
  obtain ⟨d, i, hms⟩ := henviado x.2 hinterrupt
  have hqueda : h ∈ l ++ ((programa c).destino k a ++ r) := by
    have hne : h ≠ (programa c).origen a := by
      rintro rfl
      cases ho.symm.trans hx
    simp only [List.mem_append, List.mem_cons] at hh ⊢
    tauto
  have hfd : (((programa c).efecto k a).cpus cpu).socketDispatch = some x.1 :=
    (congrArg Cpu.socketDispatch (congrFun hcpus cpu)).trans hdispatch
  refine Or.inr (Or.inr ⟨x.1, hfd, Or.inr ⟨h, hqueda, congrArg (Option.map Prod.fst) hx, ?_⟩⟩)
  cases h with
  | moduloSaludaInterrupt fd fdInterrupt =>
    cases hx
    rw [avisado]
    dsimp only at hms ⊢
    rw [hms]
    exact hayInterrupcion_enviada (Nat.zero_le _) d i
  | modulo m =>
    cases hx
    rw [avisado, Bool.or_eq_true]
    dsimp only at hms ⊢
    rw [hms]
    exact Or.inr (hayInterrupcion_enviada (hI.leidos m hh) d i)
  | _ => cases hx

/-- The check of SRT has nobody stay for longer than the estimate, or interrupts the CPU with the
greatest remaining time. -/
theorem evaluada (hsrt : c.algoritmoCortoPlazo = .srt)
    (hI : Enlaces ⟨k, l ++ (programa c).origen a :: r⟩) (hk : Evaluado k k₀)
    (hp : k₀.pcbs pcb = some p₀) (hest : p₀.estimacionRafaga = p.estimacionRafaga)
    (hdef : (desalojarSiEsNecesarioSrt c k₀ pcb).indefinido = false)
    (ho : conexionesDe ((programa c).origen a) = none)
    (hcpus : ((programa c).efecto k a).cpus = k.cpus)
    (henviados : ∀ fd, ((programa c).efecto k a).enviados (.interrupt fd) =
      (desalojarSiEsNecesarioSrt c k₀ pcb).enviados (.interrupt fd)) :
    (∀ cpu ∈ k.listaCpus, ∀ t, restante k cpu = some t → t ≤ p.estimacionRafaga) ∨
      ∃ cpu ∈ mayor k, cpu ∈ k.listaCpus ∧
        (Alcanzable ⟨k, l ++ (programa c).origen a :: r⟩ cpu →
          Saliente ⟨(programa c).efecto k a, l ++ ((programa c).destino k a ++ r)⟩ cpu) := by
  have hmayor : mayor k₀ = mayor k := by rw [mayor, mayor, hk.lista, hk.restante]
  rcases desalojar_mayor hsrt hp hdef with h | ⟨cpu, hcpu, hlista, h⟩
  · left
    rwa [hk.lista, hk.restante, hest] at h
  · refine Or.inr ⟨cpu, hmayor ▸ hcpu, hk.lista ▸ hlista, fun hal => ?_⟩
    refine saliente_interrumpida hI hal ho hcpus fun fd hfd => ?_
    rw [henviados, h, enviarInterrupcionACpu, hk.cpus, hfd]
    refine ⟨(k.cpus cpu).socketDispatch, rafagaActual k₀ cpu, ?_⟩
    dsimp only [Kernel.enviar]
    rw [Function.update_self, hk.enviados]

end Evaluacion

section Llegada

variable {c : ConfigKernel} {k : Kernel} {l r : List Hilo} {a : Accion} {e : ℚ}
  (hA : Asignados ⟨k, l ++ (programa c).origen a :: r⟩)
  (hI : Enlaces ⟨k, l ++ (programa c).origen a :: r⟩) (hg : (programa c).guarda k a)
  (hn : normal k a = true) (hdef : ((programa c).efecto k a).indefinido = false)
  (hcorto : a ≠ .cortoPlanifica) (hcub : Cubierto ⟨k, l ++ (programa c).origen a :: r⟩)

include hA hI hg hn hdef hcorto hcub

theorem cubierto_igual
    (hespera : ∀ t, menores (esperan
      ⟨(programa c).efecto k a, l ++ ((programa c).destino k a ++ r)⟩) t ≤
        menores (esperan ⟨k, l ++ (programa c).origen a :: r⟩) t) :
    Cubierto ⟨(programa c).efecto k a, l ++ ((programa c).destino k a ++ r)⟩ := by
  have hlugares := lugares_sigue hA hI hg hn hdef (libres_siguen hA hn hcorto)
  exact hcub.mono hespera hlugares.1 (quedan_sigue hA hI hg hn hdef hcorto)

theorem cubierto_llega
    (hespera : ∀ t, menores (esperan
      ⟨(programa c).efecto k a, l ++ ((programa c).destino k a ++ r)⟩) t ≤
        menores (e :: esperan ⟨k, l ++ (programa c).origen a :: r⟩) t)
    (hcabe : MayorQueda ⟨k, l ++ (programa c).origen a :: r⟩ ∧
        ((∀ cpu ∈ k.listaCpus, ∀ t, restante k cpu = some t → t ≤ e) ∨
          ∃ cpu ∈ mayor k, cpu ∈ k.listaCpus ∧
            (Alcanzable ⟨k, l ++ (programa c).origen a :: r⟩ cpu →
              Saliente ⟨(programa c).efecto k a, l ++ ((programa c).destino k a ++ r)⟩ cpu)) ∨
      Sobra ⟨k, l ++ (programa c).origen a :: r⟩ e) :
    Cubierto ⟨(programa c).efecto k a, l ++ ((programa c).destino k a ++ r)⟩ := by
  have hlugares := lugares_sigue hA hI hg hn hdef (libres_siguen hA hn hcorto)
  have hquedan := quedan_sigue hA hI hg hn hdef hcorto
  rcases hcabe with ⟨hmayor, hcortos | ⟨cpu, hcpu, hlista, hsaliente⟩⟩ | hsobra
  · refine (hcub.llega fun t ht hlt => ?_).mono hespera hlugares.1 hquedan
    obtain ⟨cpu, hcpu, hrest⟩ := List.mem_filterMap.mp ht
    exact absurd (hcortos cpu (List.mem_filter.mp hcpu).1 t hrest) (not_le.mpr hlt)
  · obtain ⟨hno, hal⟩ := hmayor cpu hcpu
    exact hcub.llega_con_lugar.mono hespera (hlugares.2 cpu hlista hno (hsaliente hal)) hquedan
  · exact (hcub.llega hsobra).mono hespera hlugares.1 hquedan

end Llegada

section Acciones

variable {c : ConfigKernel} {k : Kernel} {l r : List Hilo} {cpu : ℕ} {pcb : ℤ}

/-- The check of SRT looks at the estimate of the process. -/
theorem vivo_de_desalojar (hsrt : c.algoritmoCortoPlazo = .srt)
    (hdef : (desalojarSiEsNecesarioSrt c k pcb).indefinido = false) :
    ∃ p, k.pcbs pcb = some p := by
  rw [desalojarSiEsNecesarioSrt, if_pos hsrt] at hdef
  cases hp : k.pcbs pcb with
  | none =>
    rw [hp] at hdef
    cases hdef
  | some p => exact ⟨p, rfl⟩

theorem estimacion_de_update {e : Estado} {p₀ : Pcb} (h : Function.update k.pcbs pcb
    ((k.pcbs pcb).map (Pcb.cambiarEstado k.reloj e)) pcb = some p₀) :
    ∃ p, k.pcbs pcb = some p ∧ p₀.estimacionRafaga = p.estimacionRafaga := by
  rw [Function.update_self] at h
  obtain ⟨p, hp, rfl⟩ := Option.map_eq_some_iff.mp h
  exact ⟨p, hp, estimacion_cambiarEstado k.reloj e p⟩

theorem despertado_none {pid : ℤ} (h : despertado k pid = none) :
    (despertarDeIo c k pid).colas .ready = k.colas .ready ∧
      (terminarDump k pid).colas .ready = k.colas .ready := by
  rw [despertado] at h
  rw [despertarDeIo, terminarDump]
  split
  · exact ⟨rfl, rfl⟩
  · exact ⟨rfl, rfl⟩
  · next q hq =>
      rw [hq] at h
      dsimp only at h ⊢
      split at h
      · cases h
      · next hno =>
          rw [if_neg hno, if_neg hno]
          split <;> exact ⟨rfl, rfl⟩

/-- The end of an IO has the process checked and the end of a dump does not. -/
theorem despertado_some {pid : ℤ} (h : despertado k pid = some pcb) :
    (∃ p, k.pcbs pcb = some p) ∧
      despertarDeIo c k pid = desalojarSiEsNecesarioSrt c (desbloquear k pcb) pcb ∧
      terminarDump k pid = desbloquear k pcb := by
  rw [despertado] at h
  rw [despertarDeIo, terminarDump]
  split at h
  · next q hq =>
      rw [hq]
      split at h
      · next hsi =>
          cases h
          obtain ⟨p, hp, -⟩ := Option.map_eq_some_iff.mp hsi
          exact ⟨⟨p, hp⟩, if_pos hsi, if_pos hsi⟩
      · cases h
  · cases h

theorem cubierto_admitir {susp : Bool} (hsrt : c.algoritmoCortoPlazo = .srt)
    (hA : Asignados ⟨k, l ++ (programa c).origen (.largoResuelve pcb susp true) :: r⟩)
    (hI : Enlaces ⟨k, l ++ (programa c).origen (.largoResuelve pcb susp true) :: r⟩)
    (hg : (programa c).guarda k (.largoResuelve pcb susp true))
    (hdef : ((programa c).efecto k (.largoResuelve pcb susp true)).indefinido = false)
    (hcub : Cubierto ⟨k, l ++ (programa c).origen (.largoResuelve pcb susp true) :: r⟩)
    (hcabe : Cabe c (l.length, .largoResuelve pcb susp true)
      ⟨k, l ++ (programa c).origen (.largoResuelve pcb susp true) :: r⟩) :
    Cubierto ⟨(programa c).efecto k (.largoResuelve pcb susp true),
      l ++ ((programa c).destino k (.largoResuelve pcb susp true) ++ r)⟩ := by
  obtain ⟨e, i, h, -, -⟩ := admitir_eq c k pcb susp
  obtain ⟨p₀, hp₀⟩ := vivo_de_desalojar hsrt hdef
  obtain ⟨p, hp, hest⟩ := estimacion_de_update hp₀
  have hlista : (admitir c k pcb susp).colas .ready = k.colas .ready ++ [pcb] := by
    rw [h]
    dsimp only
    rw [Function.update_self]
  have hespera := espera_llega hA (by simp) (by simp) (.refl _)
    ((List.Perm.of_eq hlista).trans (List.perm_append_singleton _ _))
    (conserva_admitir c k pcb susp) hp
  refine cubierto_llega hA hI hg rfl hdef (by simp) hcub hespera ?_
  refine (hcabe pcb rfl p hp).imp_left fun hmayor => ⟨hmayor.2, ?_⟩
  refine evaluada hsrt hI ?_ hp₀ hest hdef rfl ?_ fun _ => rfl
  · exact evaluado_cambiarEstado pcb .ready rfl rfl rfl rfl rfl
  · show (admitir c k pcb susp).cpus = k.cpus
    rw [h]

theorem cubierto_fin_io {fd : ℕ} {nombre : List Byte} {terminadas : ℕ} {pid : ℤ}
    (hsrt : c.algoritmoCortoPlazo = .srt)
    (hA : Asignados ⟨k, l ++ (programa c).origen (.ioTermina fd nombre terminadas pid) :: r⟩)
    (hI : Enlaces ⟨k, l ++ (programa c).origen (.ioTermina fd nombre terminadas pid) :: r⟩)
    (hg : (programa c).guarda k (.ioTermina fd nombre terminadas pid))
    (hdef : ((programa c).efecto k (.ioTermina fd nombre terminadas pid)).indefinido = false)
    (hcub : Cubierto ⟨k, l ++ (programa c).origen (.ioTermina fd nombre terminadas pid) :: r⟩)
    (hcabe : Cabe c (l.length, .ioTermina fd nombre terminadas pid)
      ⟨k, l ++ (programa c).origen (.ioTermina fd nombre terminadas pid) :: r⟩) :
    Cubierto ⟨(programa c).efecto k (.ioTermina fd nombre terminadas pid),
      l ++ ((programa c).destino k (.ioTermina fd nombre terminadas pid) ++ r)⟩ := by
  have higual : (((programa c).efecto k (.ioTermina fd nombre terminadas pid)).colas .ready =
      k.colas .ready) → Cubierto ⟨(programa c).efecto k (.ioTermina fd nombre terminadas pid),
        l ++ ((programa c).destino k (.ioTermina fd nombre terminadas pid) ++ r)⟩ := fun h =>
    cubierto_igual hA hI hg rfl hdef (by simp) hcub
      (espera_igual hA (by simp) (by simp) (.refl _) (.of_eq h))
  cases hgrupo : grupoDeSocket k fd with
  | none =>
    refine higual ?_
    dsimp only [programa, transicion]
    rw [manejarFinIo, hgrupo]
  | some g =>
    have hefecto : (programa c).efecto k (.ioTermina fd nombre terminadas pid) =
        guardarGrupo (despertarDeIo c k pid) (despacharIoSiEsPosible (liberarInstancia g fd)) := by
      dsimp only [programa, transicion]
      rw [manejarFinIo, hgrupo]
    cases hdes : despertado k pid with
    | none =>
      refine higual ?_
      rw [hefecto]
      exact (despertado_none hdes).1
    | some pcb =>
      obtain ⟨-, hsi, -⟩ := despertado_some (c := c) hdes
      rw [hsi] at hefecto
      have hdef₀ : (desalojarSiEsNecesarioSrt c (desbloquear k pcb) pcb).indefinido = false :=
        (congrArg Kernel.indefinido hefecto).symm.trans hdef
      obtain ⟨p₀, hp₀⟩ := vivo_de_desalojar hsrt hdef₀
      obtain ⟨p, hp, hest⟩ := estimacion_de_update hp₀
      have hready : ((programa c).efecto k (.ioTermina fd nombre terminadas pid)).colas .ready =
          k.colas .ready ++ [pcb] := by
        rw [hefecto]
        exact congrFun (colas_desalojar pcb) .ready
      have hcons : Conserva (vistaPcbs k)
          (vistaPcbs ((programa c).efecto k (.ioTermina fd nombre terminadas pid))) pcb :=
        conserva_efecto c k (by simp) (by simp) (by simp)
      have hespera := espera_llega hA (by simp) (by simp) (.refl _)
        ((List.Perm.of_eq hready).trans (List.perm_append_singleton _ _)) hcons hp
      have hllega : pcb ∈ llega c
          ⟨k, l ++ (programa c).origen (.ioTermina fd nombre terminadas pid) :: r⟩
          (.ioTermina fd nombre terminadas pid) := by
        rw [llega, hgrupo]
        exact hdes
      refine cubierto_llega hA hI hg rfl hdef (by simp) hcub hespera ?_
      refine (hcabe pcb hllega p hp).imp_left fun hmayor => ⟨hmayor.2, ?_⟩
      refine evaluada hsrt hI ?_ hp₀ hest hdef₀ rfl ?_ fun fd' => ?_
      · exact evaluado_cambiarEstado pcb .ready rfl rfl rfl rfl rfl
      · obtain ⟨_, _, h, -⟩ := desalojar_eq c (desbloquear k pcb) pcb
        rw [hefecto, guardarGrupo, h]
        rfl
      · rw [hefecto]
        exact enviarPedidos_otro _ _ _ fun _ => by simp

/-- The end of a dump takes the process to READY without a check. -/
theorem cubierto_fin_dump
    (hA : Asignados ⟨k, l ++ (programa c).origen (.dumpResuelve pcb true) :: r⟩)
    (hI : Enlaces ⟨k, l ++ (programa c).origen (.dumpResuelve pcb true) :: r⟩)
    (hg : (programa c).guarda k (.dumpResuelve pcb true))
    (hdef : ((programa c).efecto k (.dumpResuelve pcb true)).indefinido = false)
    (hcub : Cubierto ⟨k, l ++ (programa c).origen (.dumpResuelve pcb true) :: r⟩)
    (hcabe : Cabe c (l.length, .dumpResuelve pcb true)
      ⟨k, l ++ (programa c).origen (.dumpResuelve pcb true) :: r⟩) :
    Cubierto ⟨(programa c).efecto k (.dumpResuelve pcb true),
      l ++ ((programa c).destino k (.dumpResuelve pcb true) ++ r)⟩ := by
  have higual : (((programa c).efecto k (.dumpResuelve pcb true)).colas .ready =
      k.colas .ready) → Cubierto ⟨(programa c).efecto k (.dumpResuelve pcb true),
        l ++ ((programa c).destino k (.dumpResuelve pcb true) ++ r)⟩ := fun h =>
    cubierto_igual hA hI hg rfl hdef (by simp) hcub
      (espera_igual hA (by simp) (by simp) (.refl _) (.of_eq h))
  cases hp : k.pcbs pcb with
  | none =>
    refine higual ?_
    dsimp only [programa, transicion]
    rw [resolverDump, hp]
    rfl
  | some p =>
    have hefecto : (programa c).efecto k (.dumpResuelve pcb true) = terminarDump k p.pid := by
      dsimp only [programa, transicion]
      rw [resolverDump, hp]
      rfl
    cases hdes : despertado k p.pid with
    | none =>
      refine higual ?_
      rw [hefecto]
      exact (despertado_none (c := c) hdes).2
    | some q =>
      have hllega : q ∈ llega c ⟨k, l ++ (programa c).origen (.dumpResuelve pcb true) :: r⟩
          (.dumpResuelve pcb true) := by
        rw [llega, hp]
        exact hdes
      obtain ⟨⟨y, hy⟩, -, hsi⟩ := despertado_some (c := c) hdes
      rw [hsi] at hefecto
      have hready : ((programa c).efecto k (.dumpResuelve pcb true)).colas .ready =
          k.colas .ready ++ [q] := by
        rw [hefecto]
        rfl
      have hcons : Conserva (vistaPcbs k)
          (vistaPcbs ((programa c).efecto k (.dumpResuelve pcb true))) q :=
        conserva_efecto c k (by simp) (by simp) (by simp)
      have hespera := espera_llega hA (by simp) (by simp) (.refl _)
        ((List.Perm.of_eq hready).trans (List.perm_append_singleton _ _)) hcons hy
      refine cubierto_llega hA hI hg rfl hdef (by simp) hcub hespera (Or.inr ?_)
      rcases hcabe q hllega y hy with ⟨hevalua, -⟩ | hsobra
      · cases hevalua
      · exact hsobra

/-- The check of the process of an interrupted burst, which a CPU may have taken already. -/
theorem cubierto_desaloja (hsrt : c.algoritmoCortoPlazo = .srt)
    (hA : Asignados ⟨k, l ++ (programa c).origen (.escuchaDesaloja cpu pcb) :: r⟩)
    (hI : Enlaces ⟨k, l ++ (programa c).origen (.escuchaDesaloja cpu pcb) :: r⟩)
    (hg : (programa c).guarda k (.escuchaDesaloja cpu pcb))
    (hdef : ((programa c).efecto k (.escuchaDesaloja cpu pcb)).indefinido = false)
    (hcub : Cubierto ⟨k, l ++ (programa c).origen (.escuchaDesaloja cpu pcb) :: r⟩)
    (hcabe : Cabe c (l.length, .escuchaDesaloja cpu pcb)
      ⟨k, l ++ (programa c).origen (.escuchaDesaloja cpu pcb) :: r⟩) :
    Cubierto ⟨(programa c).efecto k (.escuchaDesaloja cpu pcb),
      l ++ ((programa c).destino k (.escuchaDesaloja cpu pcb) ++ r)⟩ := by
  have hready := congrFun (colas_desalojar (c := c) (k := k) pcb) .ready
  by_cases hmem : pcb ∈ k.colas .ready
  · obtain ⟨p, hp⟩ := vivo_de_desalojar hsrt hdef
    have hnodup := ready_nodup hA.unaVez
    have hresto : ∀ q ∈ (k.colas .ready).erase pcb, ∀ d,
        Accion.escuchaDesaloja cpu pcb ≠ .escuchaDesaloja d q := by
      rintro q hq d h
      cases h
      exact hnodup.not_mem_erase hq
    have hcons : Conserva (vistaPcbs k)
        (vistaPcbs ((programa c).efecto k (.escuchaDesaloja cpu pcb))) pcb :=
      conserva_efecto c k (by simp) (by simp) (by simp)
    have hespera := espera_llega hA (by simp) hresto List.erase_sublist
      ((List.Perm.of_eq hready).trans (List.perm_cons_erase hmem)) hcons hp
    refine cubierto_llega hA hI hg rfl hdef (by simp) hcub hespera ?_
    refine (hcabe pcb (if_pos hmem) p hp).imp_left fun hmayor => ⟨hmayor.2, ?_⟩
    refine evaluada hsrt hI ⟨rfl, rfl, rfl, rfl⟩ hp rfl hdef rfl ?_ fun _ => rfl
    obtain ⟨_, _, h, -⟩ := desalojar_eq c k pcb
    show (desalojarSiEsNecesarioSrt c k pcb).cpus = k.cpus
    rw [h]
  · have hresto : ∀ q ∈ k.colas .ready, ∀ d,
        Accion.escuchaDesaloja cpu pcb ≠ .escuchaDesaloja d q := by
      rintro q hq d h
      cases h
      exact hmem hq
    exact cubierto_igual hA hI hg rfl hdef (by simp) hcub
      (espera_igual hA (by simp) hresto (.refl _) (.of_eq hready))

/-- The process of an interrupted burst does not count until it is checked. -/
theorem cubierto_agregaReady
    (hA : Asignados ⟨k, l ++ (programa c).origen (.escuchaAgregaReady cpu pcb) :: r⟩)
    (hI : Enlaces ⟨k, l ++ (programa c).origen (.escuchaAgregaReady cpu pcb) :: r⟩)
    (hg : (programa c).guarda k (.escuchaAgregaReady cpu pcb))
    (hdef : ((programa c).efecto k (.escuchaAgregaReady cpu pcb)).indefinido = false)
    (hcub : Cubierto ⟨k, l ++ (programa c).origen (.escuchaAgregaReady cpu pcb) :: r⟩) :
    Cubierto ⟨(programa c).efecto k (.escuchaAgregaReady cpu pcb),
      l ++ ((programa c).destino k (.escuchaAgregaReady cpu pcb) ++ r)⟩ := by
  have hnuevo : estimacionDe ⟨(programa c).efecto k (.escuchaAgregaReady cpu pcb),
      l ++ ((programa c).destino k (.escuchaAgregaReady cpu pcb) ++ r)⟩ pcb = none := by
    apply if_pos
    refine List.mem_filterMap.mpr ⟨Hilo.escuchaCambiaReady cpu pcb, ?_, rfl⟩
    exact List.mem_append_right _ List.mem_cons_self
  have hready : ((programa c).efecto k (.escuchaAgregaReady cpu pcb)).colas .ready =
      k.colas .ready ++ [pcb] := rfl
  refine cubierto_igual hA hI hg rfl hdef (by simp) hcub fun t => ?_
  rw [esperan, hready, List.filterMap_append, List.filterMap_cons_none hnuevo, List.filterMap_nil,
    List.append_nil]
  exact menores_filterMap (espera_conserva hA (by simp) (by simp) (.refl _)) t

/-- Every step but a dispatch keeps a CPU for each of the processes that wait. -/
theorem cubierto_efecto {a : Accion} (hsrt : c.algoritmoCortoPlazo = .srt)
    (hA : Asignados ⟨k, l ++ (programa c).origen a :: r⟩)
    (hI : Enlaces ⟨k, l ++ (programa c).origen a :: r⟩) (hg : (programa c).guarda k a)
    (hP : Prevista c (l.length, a) ⟨k, l ++ (programa c).origen a :: r⟩)
    (hdef : ((programa c).efecto k a).indefinido = false) (hcorto : a ≠ .cortoPlanifica)
    (hcub : Cubierto ⟨k, l ++ (programa c).origen a :: r⟩) :
    Cubierto ⟨(programa c).efecto k a, l ++ ((programa c).destino k a ++ r)⟩ := by
  obtain ⟨hn, hcabe⟩ := hP
  cases hready : cambiaReady a with
  | false =>
    have higual := ready_efecto (c := c) (k := k) hready
    cases a with
    | escuchaDesaloja cpu pcb => exact cubierto_desaloja hsrt hA hI hg hdef hcub hcabe
    | _ =>
      exact cubierto_igual hA hI hg hn hdef hcorto hcub
        (espera_igual hA hcorto (by simp) (.refl _) (.of_eq higual))
  | true =>
    cases a with
    | largoResuelve pcb susp ok =>
      cases ok with
      | true => exact cubierto_admitir hsrt hA hI hg hdef hcub hcabe
      | false => cases hready
    | dumpResuelve pcb ok =>
      cases ok with
      | true => exact cubierto_fin_dump hA hI hg hdef hcub hcabe
      | false => cases hready
    | ioTermina fd nombre terminadas pid => exact cubierto_fin_io hsrt hA hI hg hdef hcub hcabe
    | escuchaAgregaReady cpu pcb => exact cubierto_agregaReady hA hI hg hdef hcub
    | cortoPlanifica => exact absurd rfl hcorto
    | _ => cases hready

end Acciones

end KernelLlegadas

import Tpssoo.KernelPcbs

/-!
# Suspension after a full wait

A timer of `hilo_suspension_proceso` is never cancelled, so it may fire on a process that
has come back and has been blocked again. The entries into BLOCKED that the metrics of the
process count tell the two cases apart: the process has waited since the call of
`bloquear_proceso` that started the timer just when it has not been blocked since.
-/
namespace KernelSuspension

open EnterosC Protocolo KernelEstado KernelFunciones KernelHilos KernelVistas KernelPcbs
open Entrelazado Tartamudeo

/-- The step is a call of `bloquear_proceso` that starts such a timer. -/
def Arranca (c : ConfigKernel) (pid desde : ℤ) (bloqueo : ℕ) (e : ℕ × Accion)
    (s : Sistema Kernel Hilo) : Prop :=
  .suspensionDuerme pid desde bloqueo ∈ (programa c).destino s.comun e.2 ∧ s.comun.reloj = desde

def Bloqueado (pid : ℤ) (_ : ℕ × Accion) (s : Sistema Kernel Hilo) : Prop :=
  estadoDe s.comun pid = some .blocked

/-- The firing of a timer finds its process in BLOCKED, and suspends it. -/
def Suspende (s : Sistema Kernel Hilo) (pid : ℤ) : Prop :=
  ∃ pcb, buscarPcbPorPid s.comun pid = some (some pcb) ∧ estadoDe s.comun pcb = some .blocked

/-- The process has been in BLOCKED at least `TIEMPO_SUSPENSION`, without interruption since
the call of `bloquear_proceso` that started the timer. -/
def EsperaCompleta (c : ConfigKernel) (es : List (ℕ × Accion)) (s₀ s : Sistema Kernel Hilo)
    (pid desde : ℤ) (bloqueo : ℕ) : Prop :=
  Desde (paso (programa c))
    (fun e s₁ => Arranca c pid desde bloqueo e s₁ ∧
      c.tiempoSuspension ≤ s.comun.reloj - s₁.comun.reloj)
    (Bloqueado pid) es s₀

section Buscar

variable {pcbs : ℤ → Option Pcb} {pid q : ℤ} {xs : List ℤ}

theorem buscarEnCola_eq (h : buscarEnCola pcbs pid xs = some (some q)) : q = pid := by
  induction xs with
  | nil => cases h
  | cons x xs ih =>
    rw [buscarEnCola] at h
    split at h
    · cases h
    split at h
    · next hx =>
        cases h
        exact hx
    · exact ih h

end Buscar

section Temporizadores

variable {c : ConfigKernel} {k : Kernel} {a : Accion} {pid desde : ℤ} {bloqueo : ℕ}

/-- Only `bloquear_proceso` starts a timer, and it blocks the process. -/
theorem arranca_casos (h : .suspensionDuerme pid desde bloqueo ∈ (programa c).destino k a) :
    ∃ cpu dispositivo duracion g, a = .escuchaBloquea cpu pid dispositivo duracion ∧
      buscarGrupo k dispositivo = some g ∧ desde = k.reloj ∧
      bloqueo = ingresosABlocked (bloquearPorIo k pid duracion) pid := by
  cases a with
  | escuchaBloquea cpu pcb dispositivo duracion =>
    dsimp only [programa, transicion] at h
    split at h
    · simp at h
    · next g hg =>
        simp only [List.mem_cons, List.not_mem_nil, or_false, reduceCtorEq, false_or] at h
        cases h
        exact ⟨cpu, dispositivo, duracion, g, rfl, hg, rfl, rfl⟩
  | recibeRespuesta cpu fd q pc motivo =>
    dsimp only [programa, transicion, trasRespuesta] at h
    repeat' split at h
    all_goals cases motivo <;> simp [segunMotivo] at h
  | _ =>
    dsimp only [programa, transicion, trasDump] at h
    repeat' split at h
    all_goals simp at h

/-- A process that stays in BLOCKED has not entered it again. -/
theorem ingresos_estables {p p' : Pcb} (hm : Mudanza p p') (h : p.estado = .blocked)
    (h' : p'.estado = .blocked) : p'.metricas.ingresosABlocked = p.metricas.ingresosABlocked := by
  rcases hm.estado with ⟨-, hmet⟩ | ⟨hne, -⟩
  · rw [hmet]
  · exact absurd (h'.trans h.symm) hne

/-- A process that has as many entries as before and is in BLOCKED was there. -/
theorem bloqueado_antes {p p' : Pcb} (hm : Mudanza p p')
    (hing : p'.metricas.ingresosABlocked = p.metricas.ingresosABlocked)
    (h' : p'.estado = .blocked) : p.estado = .blocked := by
  rcases hm.estado with ⟨hest, -⟩ | ⟨-, hmas⟩
  · rw [← hest, h']
  · rw [h', if_pos rfl] at hmas
    omega

theorem ingresos_crecen {p p' : Pcb} (hm : Mudanza p p') :
    p.metricas.ingresosABlocked ≤ p'.metricas.ingresosABlocked := by
  rcases hm.estado with ⟨-, hmet⟩ | ⟨-, hmas⟩
  · rw [hmet]
  · omega

end Temporizadores

section Historia

variable {c : ConfigKernel} {s₀ s s₁ s₂ : Sistema Kernel Hilo} {es : List (ℕ × Accion)}
  {e : ℕ × Accion} {pid desde : ℤ} {bloqueo : ℕ}

/-- What a sleeping timer can rely on, if no thread has followed a pointer to a freed block. -/
structure Vigilado (c : ConfigKernel) (s₀ : Sistema Kernel Hilo) (es : List (ℕ × Accion))
    (s : Sistema Kernel Hilo) : Prop where
  nuevos : ∀ pid, s.comun.ultimoPid ≤ pid → s.comun.pcbs pid = none
  creados : ∀ pid desde bloqueo, .suspensionDuerme pid desde bloqueo ∈ s.hilos →
    pid < s.comun.ultimoPid
  ingresos : ∀ pid desde bloqueo, .suspensionDuerme pid desde bloqueo ∈ s.hilos →
    ∀ p, s.comun.pcbs pid = some p → bloqueo ≤ p.metricas.ingresosABlocked
  espera : ∀ pid desde bloqueo, .suspensionDuerme pid desde bloqueo ∈ s.hilos →
    ∀ p, s.comun.pcbs pid = some p → p.metricas.ingresosABlocked = bloqueo → p.estado = .blocked →
      Desde (paso (programa c)) (Arranca c pid desde bloqueo) (Bloqueado pid) es s₀

theorem vigilado_paso (hrun : correr (paso (programa c)) es s₀ = some s₁)
    (hI : Vigilado c s₀ es s₁) (hp : paso (programa c) e s₁ = some s₂)
    (hdef : s₂.comun.indefinido = false) : Vigilado c s₀ (es ++ [e]) s₂ := by
  have hcomun := paso_comun hp
  have hcambio : ∀ pid, Cambio (∃ ok, e.2 = .gestorLibera pid ok) (vistaPcbs s₁.comun)
      (vistaPcbs s₂.comun) pid := fun pid => by
    rw [hcomun]
    exact cambio_efecto c s₁.comun e.2
  have hcrece : s₁.comun.ultimoPid ≤ s₂.comun.ultimoPid := by
    rcases hcambio 0 with ⟨hn, -⟩ | ⟨hn, -⟩ | ⟨hn, -⟩ | ⟨-, hn, -⟩
    · exact hn
    · exact hn
    · exact (Int.le_add_one le_rfl).trans hn.ge
    · exact hn
  -- a timer that this step starts
  have hnuevo : ∀ pid desde bloqueo,
      .suspensionDuerme pid desde bloqueo ∈ (programa c).destino s₁.comun e.2 →
        (∃ p, s₁.comun.pcbs pid = some p) ∧ s₁.comun.reloj = desde ∧
          ∀ p, s₂.comun.pcbs pid = some p → p.metricas.ingresosABlocked = bloqueo := by
    intro pid desde bloqueo hmem
    obtain ⟨cpu, disp, dur, g, ha, hg, hdesde, hbloqueo⟩ := arranca_casos hmem
    have hefecto : s₂.comun = bloquearPorIo s₁.comun pid dur := by
      rw [hcomun, ha]
      dsimp only [programa, transicion]
      rw [hg]
    refine ⟨?_, hdesde.symm, fun p hpcb => ?_⟩
    · cases hpcb : s₁.comun.pcbs pid with
      | some p => exact ⟨p, rfl⟩
      | none =>
        rw [hefecto] at hdef
        simp [bloquearPorIo, Kernel.agregar, Kernel.cambiarEstado, Kernel.conPcb, Kernel.quitar,
          hpcb] at hdef
    · rw [hbloqueo, ← hefecto, ingresosABlocked, hpcb]
      rfl
  refine ⟨fun pid hpid => ?_, fun pid desde bloqueo hmem => ?_,
    fun pid desde bloqueo hmem p hpcb => ?_,
    fun pid desde bloqueo hmem p hpcb hing hest => ?_⟩
  · have hantes := hI.nuevos pid (hcrece.trans hpid)
    rcases hcambio pid with ⟨-, h⟩ | ⟨-, h, -, -⟩ | ⟨hn, h, -, -, -, -⟩ | ⟨-, -, h⟩
    · exact h.trans hantes
    · cases hantes.symm.trans h
    · have hn' : s₂.comun.ultimoPid = s₁.comun.ultimoPid + 1 := hn
      have h' : pid = s₁.comun.ultimoPid := h
      omega
    · exact h
  · rcases paso_hilos hp hmem with hmem | hmem
    · exact (hI.creados pid desde bloqueo hmem).trans_le hcrece
    · obtain ⟨⟨p, hpcb⟩, -, -⟩ := hnuevo pid desde bloqueo hmem
      refine lt_of_lt_of_le (lt_of_not_ge fun hle => ?_) hcrece
      cases (hI.nuevos pid hle).symm.trans hpcb
  · rcases paso_hilos hp hmem with hmem | hmem
    · rcases hcambio pid with ⟨-, h⟩ | ⟨-, h, h', hm⟩ | ⟨-, h, -, -, -, -⟩ | ⟨-, -, h⟩
      · exact hI.ingresos pid desde bloqueo hmem p (h.symm.trans hpcb)
      · cases hpcb.symm.trans h'
        exact (hI.ingresos pid desde bloqueo hmem _ h).trans (ingresos_crecen hm)
      · exact absurd (hI.creados pid desde bloqueo hmem) h.ge.not_gt
      · cases hpcb.symm.trans h
    · exact ((hnuevo pid desde bloqueo hmem).2.2 p hpcb).ge
  · rcases paso_hilos hp hmem with hmem | hmem
    · -- the wait goes on
      have hsigue : ∀ q, s₁.comun.pcbs pid = some q → q.metricas.ingresosABlocked = bloqueo →
          q.estado = .blocked → Desde (paso (programa c)) (Arranca c pid desde bloqueo)
            (Bloqueado pid) (es ++ [e]) s₀ := by
        intro q hq hqing hqest
        refine Desde.sigue hrun ?_ (hI.espera pid desde bloqueo hmem q hq hqing hqest)
        rw [Bloqueado, estadoDe, hq, ← hqest]
        rfl
      rcases hcambio pid with ⟨-, h⟩ | ⟨-, h, h', hm⟩ | ⟨-, h, -, -, -, -⟩ | ⟨-, -, h⟩
      · exact hsigue p (h.symm.trans hpcb) hing hest
      · cases hpcb.symm.trans h'
        have hmenor := hI.ingresos pid desde bloqueo hmem _ h
        have heq := (hmenor.trans (ingresos_crecen hm)).antisymm hing.le
        have hmed := le_antisymm (hing ▸ ingresos_crecen hm) hmenor
        exact hsigue _ h hmed (bloqueado_antes hm (hing.trans hmed.symm) hest)
      · exact absurd (hI.creados pid desde bloqueo hmem) h.ge.not_gt
      · cases hpcb.symm.trans h
    · exact Desde.aqui hrun ⟨hmem, (hnuevo pid desde bloqueo hmem).2.1⟩ hp

/-- The converse: a process that stays in BLOCKED keeps its entries. -/
theorem ingresos_de_espera {A : ℕ × Accion → Sistema Kernel Hilo → Prop}
    (hA : ∀ e s, A e s → Arranca c pid desde bloqueo e s)
    (hrun : correr (paso (programa c)) es s₀ = some s)
    (hest : estadoDe s.comun pid = some .blocked)
    (h : Desde (paso (programa c)) A (Bloqueado pid) es s₀) :
    ingresosABlocked s.comun pid = bloqueo := by
  revert hest h
  refine invariante_historia (I := fun es s => estadoDe s.comun pid = some .blocked →
    Desde (paso (programa c)) A (Bloqueado pid) es s₀ → ingresosABlocked s.comun pid = bloqueo)
    ?_ ?_ hrun
  · rintro - ⟨es₁, e, es₂, -, -, heq, -⟩
    exact absurd heq (by simp)
  · intro es e s₁ s₂ hrun hI hp hest h
    rcases h.casos hrun with ha | ⟨h, hantes⟩
    · obtain ⟨cpu, disp, dur, g, ha', hg, -, hbloqueo⟩ := arranca_casos (hA e s₁ ha).1
      rw [paso_comun hp, ha', hbloqueo]
      dsimp only [programa, transicion]
      rw [hg]
    · have hing := hI hantes h
      have hcambio : Cambio (∃ ok, e.2 = .gestorLibera pid ok) (vistaPcbs s₁.comun)
          (vistaPcbs s₂.comun) pid := by
        rw [paso_comun hp]
        exact cambio_efecto c s₁.comun e.2
      rw [ingresosABlocked] at hing ⊢
      rcases hcambio with ⟨-, h⟩ | ⟨-, h, h', hm⟩ | ⟨-, -, h, -, hnew, -⟩ | ⟨-, -, h⟩
      · rwa [show s₂.comun.pcbs pid = _ from h]
      · rw [estadoDe, show s₂.comun.pcbs pid = _ from h'] at hest
        rw [Bloqueado, estadoDe, show s₁.comun.pcbs pid = _ from h] at hantes
        rw [show s₁.comun.pcbs pid = _ from h] at hing
        rw [show s₂.comun.pcbs pid = _ from h', ← hing]
        exact ingresos_estables hm (Option.some.inj hantes) (Option.some.inj hest)
      · rw [estadoDe, show s₂.comun.pcbs pid = _ from h] at hest
        cases hnew.symm.trans (Option.some.inj hest)
      · rw [estadoDe, show s₂.comun.pcbs pid = _ from h] at hest
        cases hest

end Historia

section Ley

variable (c : ConfigKernel) (path : List Byte) (tamanio : ℤ) (absoluto : Option (List Byte))

theorem vigilado_inicial : Vigilado c (arranque c path tamanio absoluto) []
    (arranque c path tamanio absoluto) := by
  have hpcbs : ∃ p, (arranque c path tamanio absoluto).comun.pcbs =
      Function.update (fun _ => none) 0 (some p) := ⟨_, rfl⟩
  obtain ⟨p, hp⟩ := hpcbs
  have hsin : ∀ pid desde bloqueo, .suspensionDuerme pid desde bloqueo ∉
      (arranque c path tamanio absoluto).hilos := by simp [arranque]
  refine ⟨fun pid hpid => ?_, fun pid desde bloqueo h => absurd h (hsin pid desde bloqueo),
    fun pid desde bloqueo h => absurd h (hsin pid desde bloqueo),
    fun pid desde bloqueo h => absurd h (hsin pid desde bloqueo)⟩
  have hpos : (1 : ℤ) ≤ pid := hpid
  rw [hp, Function.update_of_ne (by omega)]

theorem vigilado_corrida {es : List (ℕ × Accion)} {s : Sistema Kernel Hilo}
    (hrun : correr (paso (programa c)) es (arranque c path tamanio absoluto) = some s)
    (hdef : s.comun.indefinido = false) :
    Vigilado c (arranque c path tamanio absoluto) es s := by
  revert hdef
  refine invariante_historia (I := fun es s => s.comun.indefinido = false →
    Vigilado c (arranque c path tamanio absoluto) es s)
    (fun _ => vigilado_inicial c path tamanio absoluto) ?_ hrun
  intro es e s₁ s₂ hrun hI hp hdef
  exact vigilado_paso hrun (hI (paso_guarda hp).1) hp hdef

/-- A timer that fires on a process in BLOCKED has waited for it in full just when the
process has not been blocked again and the sleep was not cut short. -/
theorem suspension_iff {es : List (ℕ × Accion)} {s : Sistema Kernel Hilo}
    (hrun : correr (paso (programa c)) es (arranque c path tamanio absoluto) = some s)
    {i : ℕ} {pid desde : ℤ} {bloqueo : ℕ}
    (hhab : Habilitado (programa c) (i, .suspensionVence pid desde bloqueo) s)
    (hsus : Suspende s pid) :
    EsperaCompleta c es (arranque c path tamanio absoluto) s pid desde bloqueo ↔
      ingresosABlocked s.comun pid = bloqueo ∧ c.tiempoSuspension ≤ s.comun.reloj - desde := by
  obtain ⟨q, hbusca, hest⟩ := hsus
  have hdef : s.comun.indefinido = false := hhab.2.1
  have hmem : .suspensionDuerme pid desde bloqueo ∈ s.hilos := List.mem_of_getElem? hhab.1
  obtain rfl : q = pid := buscarEnCola_eq hbusca
  constructor
  · intro h
    refine ⟨ingresos_de_espera (fun e s h => h.1) hrun hest h, ?_⟩
    obtain ⟨es₁, e, es₂, s₁, s₂, -, -, ⟨⟨-, hdesde⟩, htiempo⟩, -⟩ := h
    rwa [hdesde] at htiempo
  · rintro ⟨hing, htiempo⟩
    obtain ⟨p, hp, hpest⟩ := Option.map_eq_some_iff.mp hest
    rw [ingresosABlocked, hp] at hing
    obtain ⟨es₁, e, es₂, s₁, s₂, heq, hrun₁, hA, hp', hB⟩ :=
      (vigilado_corrida c path tamanio absoluto hrun hdef).espera q desde bloqueo hmem p hp
        hing hpest
    exact ⟨es₁, e, es₂, s₁, s₂, heq, hrun₁, ⟨hA, hA.2.symm ▸ htiempo⟩, hp', hB⟩

/-- The sleep lasts `TIEMPO_SUSPENSION` while its microseconds fit in the argument of
`usleep`. -/
theorem demora_exacta (h₀ : 0 ≤ c.tiempoSuspension) (h : c.tiempoSuspension * 1000 < 2 ^ 32) :
    demora c = c.tiempoSuspension := by
  have hwrap : aInt (c.tiempoSuspension * 1000) % 2 ^ 32 = c.tiempoSuspension * 1000 := by
    have hmod : aInt (c.tiempoSuspension * 1000) % ((2 ^ 32 : ℕ) : ℤ) =
        c.tiempoSuspension * 1000 % ((2 ^ 32 : ℕ) : ℤ) := Int.bmod_emod
    rw [Nat.cast_pow, Nat.cast_ofNat] at hmod
    rw [hmod, Int.emod_eq_of_lt (by omega) h]
  rw [demora, hwrap, Int.mul_ediv_cancel _ (by decide)]

end Ley

section Corridas

/-- The first process asks for the device, and waits. -/
def hastaBloquear : List Accion :=
  hastaEjecutar ++ [.moduloTermina ⟨0, 1, 2, 1, some (1, 0), false, []⟩ 1 (.bloqueanteIo [68] 10),
    .recibeRespuesta 0 0 0 1 (.bloqueanteIo [68] 10), .escuchaBloquea 0 0 [68] 10,
    .escuchaEncola 0 0 0 10, .escuchaLibera 0]

/-- The device ends at once, the process runs for 49 ms and asks for a dump. -/
def hastaVolcar : List Accion :=
  hastaBloquear ++ [.ioTermina 2 [68] 0 0, .cortoTomaReady, .cortoTomaCpu, .cortoPlanifica,
    .moduloLee ⟨0, 1, 2, 1, none, false, []⟩, .pasaTiempo 49,
    .moduloTermina ⟨0, 1, 3, 1, some (2, 0), false, []⟩ 2 .bloqueanteDumpMemory,
    .recibeRespuesta 0 0 0 2 .bloqueanteDumpMemory, .escuchaBloqueaDump 0 0, .escuchaLibera 0]

/-- The part of `suspension_iff` that a run can be observed for. -/
def Vence (c : ConfigKernel) (acciones : List Accion) (i : ℕ) (s : Sistema Kernel Hilo) : Prop :=
  tras c acciones = some s ∧ Habilitado (programa c) (i, .suspensionVence 0 0 1) s ∧ Suspende s 0

theorem vence_de_observar {c : ConfigKernel} {acciones : List Accion} {i ingresos : ℕ} {ahora : ℤ}
    (h : (tras c acciones).map (fun s =>
      (decide (Habilitado (programa c) (i, .suspensionVence 0 0 1) s), buscarPcbPorPid s.comun 0,
        estadoDe s.comun 0, ingresosABlocked s.comun 0, s.comun.reloj)) =
      some (true, some (some 0), some .blocked, ingresos, ahora)) :
    ∃ s, Vence c acciones i s ∧ ingresosABlocked s.comun 0 = ingresos ∧ s.comun.reloj = ahora := by
  obtain ⟨s, hs, hobs⟩ := Option.map_eq_some_iff.mp h
  simp only [Prod.mk.injEq, decide_eq_true_eq] at hobs
  obtain ⟨hhab, hbusca, hest, hing, hreloj⟩ := hobs
  exact ⟨s, ⟨hs, hhab, 0, hbusca, hest⟩, hing, hreloj⟩

theorem suspension_ejemplo : ∃ s, Vence configuracion (hastaBloquear ++ [.pasaTiempo 50]) 2 s ∧
    EsperaCompleta configuracion
      (agenda (programa configuracion) (hastaBloquear ++ [.pasaTiempo 50])
        (arranque configuracion [65] 10 none))
      (arranque configuracion [65] 10 none) s 0 0 1 := by
  have hrun : ∃ s, Vence configuracion (hastaBloquear ++ [.pasaTiempo 50]) 2 s ∧
      ingresosABlocked s.comun 0 = 1 ∧ s.comun.reloj = 50 :=
    vence_de_observar (by decide +kernel)
  obtain ⟨s, hs, hing, hreloj⟩ := hrun
  refine ⟨s, hs, (suspension_iff configuracion [65] 10 none hs.1 hs.2.1 hs.2.2).mpr ⟨hing, ?_⟩⟩
  rw [hreloj]
  decide

/-- The timer of the device suspends the process after one millisecond of its dump. -/
theorem suspende_en_el_volcado :
    ∃ s, Vence configuracion (hastaVolcar ++ [.pasaTiempo 1]) 3 s ∧
      ¬ EsperaCompleta configuracion
        (agenda (programa configuracion) (hastaVolcar ++ [.pasaTiempo 1])
          (arranque configuracion [65] 10 none))
        (arranque configuracion [65] 10 none) s 0 0 1 := by
  have hrun : ∃ s, Vence configuracion (hastaVolcar ++ [.pasaTiempo 1]) 3 s ∧
      ingresosABlocked s.comun 0 = 2 ∧ s.comun.reloj = 50 :=
    vence_de_observar (by decide +kernel)
  obtain ⟨s, hs, hing, -⟩ := hrun
  refine ⟨s, hs, fun h => ?_⟩
  obtain ⟨q, hbusca, hest⟩ := hs.2.2
  obtain rfl := buscarEnCola_eq hbusca
  have huno := ingresos_de_espera (fun e s h => h.1) hs.1 hest h
  omega

end Corridas

end KernelSuspension

import Tpssoo.SistemaCompleto
import Tpssoo.KernelUnLugar

/-!
# The kernel keeps its promises

A CPU runs a process that the kernel has in `cola_exec` and in no other place, so no request
about it that moves its pages is on its way to Memoria, and its pages are in frames when its
burst starts.
-/
namespace SistemaPromesas

open EnterosC Protocolo KernelFunciones KernelHilos KernelLargoPlazo KernelConexiones
  KernelInterrupciones KernelCpus KernelEjecucion KernelActivos KernelLugares KernelPedidos
  KernelGestor KernelUnLugar KernelLineas MemoriaEstado MemoriaPaginacion
  MemoriaPeticiones MemoriaFilas MemoriaEfectos MemoriaInvariante MemoriaPrivada
  MemoriaResidencia CpuEstado CpuMemoria CpuCiclo CpuDesalojo CpuGiros CpuAjena
  SistemaCompleto Entrelazado Tartamudeo
open KernelEstado hiding Cpu
open LineaCpu hiding Conexion
open MemoriaPropia hiding mueve
open SistemaConjunto (Conjunto Conexion)
open SistemaCpus (Nucleo Equipo Corre Promete)
open SistemaAislamiento (Fiel)
open SistemaAcuerdo (Acuerdo Viva)
open SistemaResidencia (Residencia Suelta Pendiente)

variable {cfg : Config} {c : ConfigKernel} {cpus : ℕ → Cpu} {s s' : Completo cfg}

section Memoria

variable {m m' : Memoria cfg} {k : Sistema Kernel Hilo} {xs : List Conexion} {pid : ℤ}
  {es : List SistemaConjunto.Evento}

theorem viva_solo (h : SoloMemoria m m') : Viva m' pid ↔ Viva m pid := by
  rw [Viva, Viva, viva_iff, viva_iff, pids_procesos h.procesos]

theorem paginas_solo (h : SoloMemoria m m') (hI : Paginas m) : Paginas m' where
  pids := h.pids hI.pids
  dadas := by
    refine todos_procesos ?_ h.procesos hI.dadas
    intro p q hpq hdadas
    obtain ⟨-, hfila, htam⟩ := iguales_de_soloSwap hpq
    rw [ConSusPaginas] at hdadas ⊢
    rwa [← hfila, ← htam]

theorem residente_solo (h : SoloMemoria m m') (hres : Residente m pid) : Residente m' pid := by
  intro q hq
  obtain ⟨p, hp⟩ := Option.ne_none_iff_exists'.mp
    ((viva_solo h).mp (by rw [Viva, hq]; exact Option.some_ne_none q))
  obtain ⟨-, hmismas⟩ := mismo_procesos h.procesos hp hq
  rw [hmismas.tabla, hmismas.tam]
  exact hres p hp

theorem acuerdo_solo (h : SoloMemoria m m') (hI : Acuerdo es ⟨k, m, xs⟩) :
    Acuerdo es ⟨k, m', xs⟩ := by
  refine ⟨hI.planificador, hI.nuevos, hI.pids, hI.gestor, paginas_solo h hI.memoria,
    ⟨hI.conexas.esperan, hI.conexas.corresponden⟩, ?_, hI.finalizadas, hI.falladas, hI.perdidas,
    hI.naturales, hI.pedidos, ?_, ?_⟩
  · intro x hx hresp
    have hantes := hI.frescas x hx hresp
    cases hpet : x.peticion with
    | initProc p t n path =>
      rw [hpet] at hantes
      exact not_not.mp fun hno => absurd hantes ((viva_solo h).mp hno)
    | _ => trivial
  · intro p q hq
    obtain ⟨r, hr⟩ := Option.ne_none_iff_exists'.mp
      ((viva_solo h).mp (by rw [Viva, hq]; exact Option.some_ne_none q))
    rw [(mismo_procesos h.procesos hr hq).1.tam]
    exact hI.tamanios p r hr
  · intro hdef p
    rw [viva_solo h, hI.vivas hdef p]
    refine or_congr_left ?_
    exact ⟨fun h => ⟨h.bloque, h.aceptada, h.sigue⟩, fun h => ⟨h.bloque, h.aceptada, h.sigue⟩⟩

theorem residencia_solo (h : SoloMemoria m m') (hI : Residencia ⟨k, m, xs⟩) :
    Residencia ⟨k, m', xs⟩ := by
  refine SistemaResidencia.residencia_memoria hI (paginas_solo h hI.memoria)
    ⟨hI.conexas.esperan, hI.conexas.piden⟩ ?_ fun p h => Or.inl h
  rintro p (hp | hp)
  · exact Or.inl hp
  · exact Or.inr fun hres => hp (residente_solo h hres)

end Memoria

section Kernel

variable {k k' : Sistema Kernel Hilo} {e : ℕ × Accion} {p : ℤ}

structure Regido (k : Sistema Kernel Hilo) : Prop where
  asignados : Asignados k
  lineas : Lineas k
  orden : EnOrden k

/-- A step from which no defect of the queues or of the names follows. -/
structure Medido (c : ConfigKernel) (e : ℕ × Accion) (k : Sistema Kernel Hilo) : Prop where
  nombre : NombreNuevo e k
  volcado : ∀ p, e.2 ≠ .dumpFallaConexion p
  corto : e.2 = .cortoPlanifica → Limpio c e k

theorem limpio_medido (hA : Asignados k) (hM : Medido c e k)
    (hp : Entrelazado.paso (programa c) e k = some k') : Limpio c e k := by
  obtain ⟨l, r, hhilos, -, -, -⟩ := paso_casos hp
  obtain ⟨comun, hilos⟩ := k
  obtain ⟨n, a⟩ := e
  dsimp only at hhilos
  subst hhilos
  exact limpio_de_nombres hA hM.volcado hM.corto

theorem regido_paso (hR : Regido k) (hM : Medido c e k)
    (hp : Entrelazado.paso (programa c) e k = some k') (hdef : k'.comun.indefinido = false) :
    Regido k' := by
  have hlimpio := limpio_medido hR.asignados hM hp
  have hlineas := lineas_paso hR.asignados hR.lineas hM.nombre hp hdef
  obtain ⟨l, r, hhilos, hl, hg, rfl⟩ := paso_casos hp
  obtain ⟨comun, hilos⟩ := k
  obtain ⟨n, a⟩ := e
  dsimp only at hhilos hl
  subst hhilos hl
  exact ⟨asignados_paso hR.asignados hg hM.nombre, hlineas, enOrden_paso hR.orden hg hlimpio⟩

theorem regido_inicial (c : ConfigKernel) (path : List Byte) (tamanio : ℤ)
    (absoluto : Option (List Byte)) : Regido (KernelHilos.arranque c path tamanio absoluto) where
  asignados := asignados_inicial c path tamanio absoluto
  lineas := lineas_inicial c path tamanio absoluto
  orden := enOrden_inicial c path tamanio absoluto

/-- A process in a queue is nowhere else. -/
theorem solo_en_cola (hR : Regido k) {cola : Estado} (hp : p ∈ k.comun.colas cola) :
    (k.comun.pcbs p).isSome ∧ (∀ e, p ∈ k.comun.colas e → e = cola) ∧
      ∀ x, (x, p) ∉ k.hilos.flatMap toca := by
  obtain ⟨e, hest, hveces, -⟩ := (hR.orden.lugares.lugar p).sitio (veces_cola hp)
  refine ⟨?_, fun e' he' => ?_, fun x hx => ?_⟩
  · rw [estadoDe] at hest
    obtain ⟨b, hb, -⟩ := Option.map_eq_some_iff.mp hest
    rw [hb]
    rfl
  · by_contra hne
    have hcuenta := hveces (.cola e')
    rw [if_neg (by simpa using hne)] at hcuenta
    exact List.count_eq_zero.mp hcuenta he'
  · have hcuenta := hveces (.mano x)
    rw [if_neg (by simp)] at hcuenta
    exact List.count_eq_zero.mp hcuenta hx

/-- The process of a module with a burst is in execution in the CPU of its connection. -/
theorem ejecuta_de_modulo (hR : Regido k) {m : ModuloCpu} (hm : .modulo m ∈ k.hilos)
    (hp : m.rafaga.map Prod.snd = some p) :
    ∃ cpu, (k.comun.cpus cpu).socketDispatch = some m.fdDispatch ∧ Ejecuta k cpu p := by
  refine ejecuta_de_procesos hR.lineas hm rfl ?_
  refine List.mem_append_right _ (List.mem_append_left _ ?_)
  exact Option.mem_toList.mpr hp

theorem exec_de_modulo (hR : Regido k) {m : ModuloCpu} (hm : .modulo m ∈ k.hilos)
    (hp : m.rafaga.map Prod.snd = some p) : p ∈ k.comun.colas .running := by
  obtain ⟨cpu, -, hejecuta⟩ := ejecuta_de_modulo hR hm hp
  exact hR.asignados.ejecucion.enCola cpu p hejecuta

end Kernel

section Promesas

variable {es : List SistemaConjunto.Evento} {x : Conjunto cfg} {p : ℤ}

theorem aguarda_desuspendido {h : Hilo}
    (hcor : SistemaTramites.Corresponde h (.desuspenderProceso p)) : h = .largoAguarda p true := by
  cases h with
  | largoAguarda q susp =>
    cases susp with
    | true =>
      cases hcor
      rfl
    | false =>
      obtain ⟨_, _, _, hno⟩ := hcor
      cases hno
  | gestorAguarda q | suspensionAguarda q | dumpAguarda q => cases hcor
  | _ => exact hcor.elim

/-- A process that no thread is about to have moved: Memoria keeps it with its pages in frames,
and it has no request about it that moves them. -/
structure Quieto (x : Conjunto cfg) (p : ℤ) : Prop where
  vivo : Viva x.memoria p
  residente : Residente x.memoria p
  sinPedidos : ∀ y ∈ x.conexiones, y.respuesta = none → MemoriaPropia.mueve y.peticion ≠ some p

/-- Memoria keeps the processes that the kernel has admitted. -/
theorem vivo_en_cola (hA : Acuerdo es x) (hR : Regido x.kernel)
    (hdef : x.kernel.comun.indefinido = false) {cola : Estado} (hcola : cola ≠ .new)
    (hp : p ∈ x.kernel.comun.colas cola) : Viva x.memoria p := by
  obtain ⟨hbloque, hsola, hlibre⟩ := solo_en_cola hR hp
  refine (hA.vivas hdef p).mpr (Or.inl ⟨hbloque, fun hnueva => ?_, fun hterm => ?_⟩)
  · exact absurd (hsola .new hnueva).symm hcola
  · obtain ⟨d, hd, hgestor, -⟩ := SistemaAcuerdo.terminada_gestor hA hterm
    refine hlibre .libera (List.mem_flatMap.mpr ⟨d, hd, ?_⟩)
    cases d <;> first | (cases hgestor; exact List.mem_singleton_self _) | cases hgestor

theorem quieto_en_exec (hA : Acuerdo es x) (hS : Residencia x) (hR : Regido x.kernel)
    (hdef : x.kernel.comun.indefinido = false) (hp : p ∈ x.kernel.comun.colas .running) :
    Quieto x p := by
  obtain ⟨-, hsola, hlibre⟩ := solo_en_cola hR hp
  have hquieta : ¬ Suelta x p := hS.activos.colas .running rfl p hp
  refine ⟨vivo_en_cola hA hR hdef (by decide) hp, ?_, ?_⟩
  · exact not_not.mp fun hno => hquieta (Or.inr hno)
  · intro y hy hresp hmueve
    have hcor := hA.conexas.corresponden y hy
    have hespera := hA.conexas.espera hy
    cases hpet : y.peticion with
    | finalizarProceso q =>
      rw [hpet] at hcor hmueve
      cases hmueve
      have hhilo := (SistemaAcuerdo.finaliza_iff hcor).mp rfl
      rw [hhilo] at hespera
      exact hlibre .libera (List.mem_flatMap.mpr ⟨_, hespera, List.mem_singleton_self _⟩)
    | suspenderProceso q =>
      rw [hpet] at hmueve
      cases hmueve
      exact hquieta (Or.inl (Or.inr ⟨y, hy, hpet, hresp⟩))
    | desuspenderProceso q =>
      rw [hpet] at hcor hmueve
      cases hmueve
      have hhilo := aguarda_desuspendido hcor
      rw [hhilo] at hespera
      have hcand := hA.planificador.candidato hdef _ hespera p true rfl
      cases hsola .suspendedReady (List.mem_of_mem_head? hcand)
    | _ =>
      rw [hpet] at hmueve
      cases hmueve

end Promesas

section Sincronias

variable {k : Kernel} {l r hs : List Hilo} {a : Accion} {ns ns' : ℕ → Nucleo} {fd : ℕ}

/-- What each CPU runs is the burst of its module. -/
structure Sincronia (hs : List Hilo) (ns : ℕ → Nucleo) : Prop where
  modulos : ∀ m, .modulo m ∈ hs →
    (ns m.fdDispatch).rafaga.map Prod.fst = m.rafaga.map Prod.snd
  ociosos : ∀ fd, (∀ m, .modulo m ∈ hs → m.fdDispatch ≠ fd) → (ns fd).rafaga = none

theorem Sincronia.modulo (h : Sincronia hs ns) {p : ℤ}
    (hp : (ns fd).rafaga.map Prod.fst = some p) :
    ∃ m, .modulo m ∈ hs ∧ m.fdDispatch = fd ∧ m.rafaga.map Prod.snd = some p := by
  by_contra hno
  have hnada : (ns fd).rafaga = none := by
    refine h.ociosos fd fun m hm hfd => hno ⟨m, hm, hfd, ?_⟩
    rw [← h.modulos m hm, hfd, hp]
  rw [hnada] at hp
  cases hp

theorem otros_modulos {o : Hilo} (hL : Lineas ⟨k, l ++ o :: r⟩) (ho : moduloDe o = some fd)
    {m : ModuloCpu} (hm : .modulo m ∈ l ++ r) : m.fdDispatch ≠ fd := by
  rintro rfl
  obtain ⟨x, hx⟩ := ocupa_alguno ⟨k, l ++ o :: r⟩ m.fdDispatch
  obtain ⟨hl, hr⟩ := modulos_solo (hL.regulares _ x hx) ho
  rcases List.mem_append.mp hm with hm | hm
  · exact List.not_mem_nil (hl ▸ List.mem_filter.mpr ⟨hm, decide_eq_true rfl⟩)
  · exact List.not_mem_nil (hr ▸ List.mem_filter.mpr ⟨hm, decide_eq_true rfl⟩)

/-- A module goes on. -/
theorem sincronia_modulo {m m' : ModuloCpu} (hL : Lineas ⟨k, l ++ .modulo m :: r⟩)
    (h : Sincronia (l ++ .modulo m :: r) ns) (hfd : m'.fdDispatch = m.fdDispatch)
    (hotros : ∀ fd, fd ≠ m.fdDispatch → ns' fd = ns fd)
    (hpropia : (ns' m.fdDispatch).rafaga.map Prod.fst = m'.rafaga.map Prod.snd) :
    Sincronia (l ++ .modulo m' :: r) ns' := by
  constructor
  · intro d hd
    simp only [List.mem_append, List.mem_cons, Hilo.modulo.injEq] at hd
    by_cases hdm : d = m'
    · rw [hdm, hfd, hpropia]
    · have hresto : .modulo d ∈ l ++ r := by
        simp only [List.mem_append]
        tauto
      rw [hotros _ (otros_modulos hL rfl hresto)]
      refine h.modulos d ?_
      simp only [List.mem_append, List.mem_cons] at hresto ⊢
      tauto
  · intro fd hno
    have hne : fd ≠ m.fdDispatch := by
      rintro rfl
      exact hno m' (by simp) hfd
    rw [hotros fd hne]
    refine h.ociosos fd fun d hd => ?_
    simp only [List.mem_append, List.mem_cons, Hilo.modulo.injEq] at hd
    rcases hd with hd | rfl | hd
    · exact hno d (by simp [hd])
    · exact hne.symm
    · exact hno d (by simp [hd])

/-- The modules that an action leaves, when it is not one of a burst. -/
theorem modulo_de_destino (ha : deRafaga a = false) {m : ModuloCpu}
    (hm : .modulo m ∈ (programa c).destino k a) :
    (∃ fd fdI, a = .moduloSaludaInterrupt fd fdI ∧ m = ⟨fd, fdI, 1, 1, none, false, []⟩) ∨
      ∃ m₀, a = .moduloInterrumpe m₀ ∧ m.fdDispatch = m₀.fdDispatch ∧ m.rafaga = m₀.rafaga := by
  cases hto : tocaModulo a with
  | false => cases modulo_destino hto _ hm
  | true =>
    cases a with
    | moduloSaludaInterrupt fd fdI =>
      cases List.mem_singleton.mp hm
      exact Or.inl ⟨fd, fdI, rfl, rfl⟩
    | moduloInterrumpe m₀ =>
      cases List.mem_singleton.mp hm
      refine Or.inr ⟨m₀, rfl, ?_⟩
      rw [ModuloCpu.interrumpir]
      split <;> exact ⟨rfl, rfl⟩
    | conectaCpu _ | moduloSaluda _ _ =>
      dsimp only [programa, transicion] at hm
      simp at hm
    | moduloLee _ | moduloInitProc _ _ _ | moduloTermina _ _ _ | moduloFallaFetch _ _ => cases ha
    | _ => cases hto

theorem modulo_de_origen (ha : deRafaga a = false) {m : ModuloCpu}
    (hm : (programa c).origen a = .modulo m) :
    a = .moduloInterrumpe m ∨ a = .moduloDesconecta m := by
  cases a with
  | moduloInterrumpe m₀ =>
    cases hm
    exact Or.inl rfl
  | moduloDesconecta m₀ =>
    cases hm
    exact Or.inr rfl
  | moduloLee _ | moduloInitProc _ _ _ | moduloTermina _ _ _ | moduloFallaFetch _ _ => cases ha
  | _ => cases hm

/-- The kernel takes an action, or a module does one that is not of a burst. -/
theorem sincronia_kernel (hL : Lineas ⟨k, l ++ (programa c).origen a :: r⟩)
    (h : Sincronia (l ++ (programa c).origen a :: r) ns) (ha : deRafaga a = false)
    (hcae : ∀ m, a = .moduloDesconecta m → m.rafaga = none) :
    Sincronia (l ++ ((programa c).destino k a ++ r)) ns := by
  have hor : (programa c).origen a ∈ l ++ (programa c).origen a :: r :=
    List.mem_append_right _ List.mem_cons_self
  have hresto : ∀ {m}, .modulo m ∈ l ++ r → .modulo m ∈ l ++ (programa c).origen a :: r := by
    intro m hm
    simp only [List.mem_append, List.mem_cons] at hm ⊢
    tauto
  constructor
  · intro m hm
    have hm : .modulo m ∈ (programa c).destino k a ∨ .modulo m ∈ l ++ r := by
      simp only [List.mem_append] at hm ⊢
      tauto
    rcases hm with hm | hm
    · rcases modulo_de_destino ha hm with ⟨fd, fdI, rfl, rfl⟩ | ⟨m₀, rfl, hfd, hraf⟩
      · have hnada : (ns fd).rafaga = none := by
          refine h.ociosos fd fun d hd => ?_
          refine otros_modulos hL rfl ?_
          simp only [List.mem_append, List.mem_cons] at hd ⊢
          rcases hd with hd | hd | hd
          · exact Or.inl hd
          · cases hd
          · exact Or.inr hd
        rw [hnada]
        rfl
      · rw [hfd, hraf]
        exact h.modulos m₀ hor
    · exact h.modulos m (hresto hm)
  · intro fd hno
    by_cases hcae' : ∃ m, a = .moduloDesconecta m ∧ m.fdDispatch = fd
    · obtain ⟨m, rfl, rfl⟩ := hcae'
      have hraf := h.modulos m hor
      rw [hcae m rfl] at hraf
      exact Option.map_eq_none_iff.mp hraf
    · refine h.ociosos fd fun m hm hfd => ?_
      simp only [List.mem_append, List.mem_cons] at hm
      rcases hm with hm | hm | hm
      · exact hno m (List.mem_append_left _ hm) hfd
      · rcases modulo_de_origen ha hm.symm with rfl | rfl
        · refine hno (m.interrumpir (k.enviados (.interrupt m.fdInterrupt))) ?_ ?_
          · exact List.mem_append_right _ List.mem_cons_self
          · rw [ModuloCpu.interrumpir]
            split <;> exact hfd
        · exact hcae' ⟨m, rfl, hfd⟩
      · exact hno m (List.mem_append_right _ (List.mem_append_right _ hm)) hfd

end Sincronias

section Gobierno

variable {es : List SistemaConjunto.Evento} {e : SistemaConjunto.Evento} {x x' : Conjunto cfg}

/-- What the kernel and Memoria keep between them. -/
structure Gobierno (es : List SistemaConjunto.Evento) (x : Conjunto cfg) : Prop where
  acuerdo : Acuerdo es x
  residencia : Residencia x
  regido : Regido x.kernel

def Ordenado (c : ConfigKernel) : SistemaConjunto.Evento → Conjunto cfg → Prop
  | .kernel i a, x | .recibe i a _, x => Medido c (i, a) x.kernel
  | .atiende env j, x => SistemaResidencia.SinAdelantos (.atiende env j) x
  | .accede _ _, _ => False

theorem kernel_de_mueve {i : ℕ} {a : Accion} {ys : List Conexion}
    (h : SistemaConjunto.mueve c i a ys x = some x') :
    Entrelazado.paso (programa c) (i, a) x.kernel = some x'.kernel := by
  obtain ⟨k, hk, rfl⟩ := Option.map_eq_some_iff.mp h
  exact hk

/-- The kernel only changes by a step of its own. -/
theorem kernel_de_paso (h : SistemaConjunto.paso c e x = some x') :
    x'.kernel = x.kernel ∨ ∃ i a, SistemaTramites.accionDe e = some a ∧
      Entrelazado.paso (programa c) (i, a) x.kernel = some x'.kernel ∧
        (Ordenado c e x → Medido c (i, a) x.kernel) := by
  cases e with
  | kernel i a =>
    rw [SistemaConjunto.paso] at h
    split at h
    · exact Or.inr ⟨i, a, rfl, kernel_de_mueve h, id⟩
    · cases h
  | recibe i a j =>
    obtain ⟨_, _, _, _, -, -, -, h⟩ := SistemaConjunto.recibe_casos h
    exact Or.inr ⟨i, a, rfl, kernel_de_mueve h, id⟩
  | atiende env j =>
    obtain ⟨_, _, _, _, -, -, rfl⟩ := SistemaConjunto.atiende_casos h
    exact Or.inl rfl
  | accede env pet =>
    obtain ⟨-, _, _, -, rfl⟩ := SistemaConjunto.accede_casos h
    exact Or.inl rfl

/-- An ordered step overtakes no suspension. -/
theorem sin_adelantos (hA : Asignados x.kernel) (hO : Ordenado c e x)
    (h : SistemaConjunto.paso c e x = some x') : SistemaResidencia.SinAdelantos e x := by
  cases e with
  | kernel i a =>
    rw [SistemaConjunto.paso] at h
    split at h
    · have hlimpio : Limpio c (i, a) x.kernel := limpio_medido hA hO (kernel_de_mueve h)
      cases a with
      | recibeRespuesta cpu fd pid pc motivo =>
        refine decide_eq_true fun q hq => ?_
        have hcola : ((x.kernel.comun.cpus cpu).pcbEnEjecucion.all fun q =>
            decide (q ∈ x.kernel.comun.colas .running)) = true := hlimpio
        rw [Option.mem_def.mp hq] at hcola
        exact of_decide_eq_true hcola
      | _ => rfl
    · cases h
  | recibe i a j => rfl
  | atiende env j => exact hO
  | accede env pet => rfl

theorem gobierno_paso (hG : Gobierno es x) (hO : Ordenado c e x)
    (h : SistemaConjunto.paso c e x = some x') (hdef : x'.kernel.comun.indefinido = false) :
    Gobierno (es ++ [e]) x' where
  acuerdo := SistemaAcuerdo.acuerdo_paso hG.acuerdo h
  residencia := SistemaResidencia.residencia_paso hG.residencia
    (sin_adelantos hG.regido.asignados hO h) h
  regido := by
    rcases kernel_de_paso h with hk | ⟨i, a, -, hk, hM⟩
    · rw [hk]
      exact hG.regido
    · exact regido_paso hG.regido (hM hO) hk hdef

theorem gobierno_solo {m : Memoria cfg} (h : SoloMemoria x.memoria m) (hG : Gobierno es x) :
    Gobierno es { x with memoria := m } where
  acuerdo := acuerdo_solo h hG.acuerdo
  residencia := residencia_solo h hG.residencia
  regido := hG.regido

end Gobierno

section Pasos

variable {es : List SistemaConjunto.Evento} {e : Evento} {i : ℕ} {m : ModuloCpu}

/-- What holds of the whole system after a run. -/
structure Entero (es : List SistemaConjunto.Evento) (s : Completo cfg) : Prop where
  gobierno : Gobierno es s.conjunto
  sincronia : Sincronia s.conjunto.kernel.hilos s.nucleos
  fiel : Fiel s.equipo

/-- The process that a CPU runs is in `cola_exec`. -/
theorem Entero.quieto (hI : Entero es s) (hdef : s.conjunto.kernel.comun.indefinido = false)
    {fd : ℕ} {p : ℤ} (hp : Corre s.equipo fd p) : Quieto s.conjunto p := by
  obtain ⟨m, hm, -, hraf⟩ := hI.sincronia.modulo hp
  exact quieto_en_exec hI.gobierno.acuerdo hI.gobierno.residencia hI.gobierno.regido hdef
    (exec_de_modulo hI.gobierno.regido hm hraf)

theorem promete_atiende (hI : Entero es s) (hdef : s.conjunto.kernel.comun.indefinido = false)
    {env : Entorno} {j : ℕ} (hP : Previsto c (.atiende env j) s) {x : Conexion}
    (hx : s.conjunto.conexiones[j]? = some x) (hresp : x.respuesta = none) :
    Promete (.atiende env x.peticion) s.equipo := by
  have hmem := List.mem_of_getElem? hx
  obtain ⟨htam, hslots⟩ := hP.2 x (Option.mem_def.mpr hx)
  refine ⟨hI.gobierno.acuerdo.frescas x hmem hresp, htam, hslots, fun p hp fd hcorre => ?_⟩
  exact (hI.quieto hdef hcorre).sinPedidos x hmem hresp hp

theorem pid_de_lectura {ms : List Mensaje} {n : ℕ} {p : Pcb} (h : ms[n]? = some (.opPcb p)) :
    p.pid ∈ (ms.drop n).filterMap pidDeOpPcb := by
  refine List.mem_filterMap.mpr ⟨.opPcb p, List.mem_iff_getElem?.mpr ⟨0, ?_⟩, rfl⟩
  rw [List.getElem?_drop, Nat.add_zero]
  exact h

theorem libre_de_lectura {k : Kernel} (hg : (programa c).guarda k (.moduloLee m))
    (hespera : m.esperaInit = false) : m.rafaga = none := by
  have hguarda := hg.2
  simp only [transicion, Bool.and_eq_true, hespera, Bool.or_false,
    Option.isNone_iff_eq_none] at hguarda
  exact hguarda.2

/-- A module that is free reads its next burst. -/
theorem promete_recibe (hI : Entero es s) (hdef : s.conjunto.kernel.comun.indefinido = false)
    (hm : .modulo m ∈ s.conjunto.kernel.hilos) {p : Pcb}
    (hleido : (s.conjunto.kernel.comun.enviados (.dispatch m.fdDispatch))[m.leidos]? =
      some (.opPcb p)) (hlibre : m.rafaga = none) :
    Promete (.recibe m.fdDispatch p.pid p.programCounter) s.equipo := by
  have hR := hI.gobierno.regido
  have hpid : p.pid ∈
      ((conexionDe s.conjunto.kernel m.fdDispatch).linea (.modulo m)).procesos :=
    List.mem_append_left _ (pid_de_lectura hleido)
  obtain ⟨cpu, hcpu, hejecuta⟩ := ejecuta_de_procesos hR.lineas hm rfl hpid
  have hquieto := quieto_en_exec hI.gobierno.acuerdo hI.gobierno.residencia hR hdef
    (hR.asignados.ejecucion.enCola cpu p.pid hejecuta)
  refine ⟨Option.isSome_iff_ne_none.mpr hquieto.vivo, hquieto.residente, fun fd hcorre => ?_⟩
  -- another module with the burst would be that of the same CPU
  obtain ⟨m', hm', rfl, hraf⟩ := hI.sincronia.modulo hcorre
  obtain ⟨cpu', hcpu', hejecuta'⟩ := ejecuta_de_modulo hR hm' hraf
  cases hR.asignados.ejecucion.unica cpu cpu' p.pid hejecuta hejecuta'
  have hfd : m.fdDispatch = m'.fdDispatch := Option.some.inj (hcpu.symm.trans hcpu')
  cases modulo_unico hR.lineas hm' hm rfl (congrArg some hfd)
  rw [hlibre] at hraf
  cases hraf

theorem medido_de_rafaga {a : Accion} {k : Sistema Kernel Hilo} (ha : deRafaga a = true) :
    Medido c (i, a) k := by
  constructor
  · rintro fd nombre rfl
    cases ha
  · rintro p rfl
    cases ha
  · rintro rfl
    cases ha

theorem medido_de_espera {a : Accion} {k : Sistema Kernel Hilo}
    (ha : SistemaConjunto.espera a ≠ none) : Medido c (i, a) k := by
  constructor
  · rintro fd nombre rfl
    exact absurd rfl ha
  · rintro p rfl
    exact absurd rfl ha
  · rintro rfl
    exact absurd rfl ha

theorem medido_de_previsto {a : Accion} (hP : Previsto c (.kernel i a) s) :
    Medido c (i, a) s.conjunto.kernel := by
  obtain ⟨hnombre, hresto⟩ := hP
  constructor
  · exact hnombre
  · rintro p rfl
    cases hresto
  · rintro rfl
    exact of_decide_eq_true hresto

/-- A kernel that has followed a freed pointer takes no step, and neither does a turn. -/
theorem definido_antes (h : SistemaCompleto.paso c cpus e s = some s')
    (hdef : s'.conjunto.kernel.comun.indefinido = false) :
    s.conjunto.kernel.comun.indefinido = false := by
  have hconjunto : ∀ {e x}, SistemaConjunto.paso c e s.conjunto = some x →
      x.kernel.comun.indefinido = false → s.conjunto.kernel.comun.indefinido = false := by
    intro e x hx hdef
    rcases kernel_de_paso hx with hk | ⟨i, a, -, hk, -⟩
    · rw [← hk]
      exact hdef
    · exact (paso_guarda hk).1
  cases e with
  | kernel i a =>
    rw [SistemaCompleto.paso] at h
    split at h
    · cases h
    · exact hconjunto (actua_casos h).1 hdef
  | recibe i a j =>
    obtain ⟨x, hx, rfl⟩ := Option.map_eq_some_iff.mp h
    exact hconjunto hx hdef
  | atiende env j =>
    obtain ⟨_, _, -, -, hx, -⟩ := atiende_casos h
    exact hconjunto hx hdef
  | lee i m =>
    obtain ⟨x, hx, h⟩ := lee_casos h
    refine hconjunto hx ?_
    rcases recibe_casos h with ⟨p, -, -, -, hs, -⟩ | ⟨-, rfl⟩
    · rw [hs] at hdef
      exact hdef
    · exact hdef
  | pide i m =>
    obtain ⟨_, _, _, _, _, _, -, -, -, -, hx, -⟩ := pide_casos h
    exact hconjunto hx hdef
  | gira i m => exact (gira_casos h).2.2.1

theorem entero_kernel {a : Accion} (hI : Entero es s) (ha : deRafaga a = false)
    (hcae : ∀ m, a = .moduloDesconecta m → m.rafaga = none) {e : SistemaConjunto.Evento}
    (hO : Ordenado c e s.conjunto) (he : SistemaTramites.accionDe e = some a) {x : Conjunto cfg}
    (h : SistemaConjunto.paso c e s.conjunto = some x) (hmem : x.memoria = s.conjunto.memoria)
    (hdef : x.kernel.comun.indefinido = false) :
    Entero (es ++ [e]) { s with conjunto := x } where
  gobierno := gobierno_paso hI.gobierno hO h hdef
  sincronia := by
    rcases kernel_de_paso h with hk | ⟨i, a', ha', hk, -⟩
    · dsimp only
      rw [hk]
      exact hI.sincronia
    · cases ha'.symm.trans he
      obtain ⟨l, r, hhilos, -, -, hs⟩ := paso_casos hk
      have hL := hI.gobierno.regido.lineas
      have hS := hI.sincronia
      dsimp only
      rw [hs]
      rw [hhilos] at hS
      refine sincronia_kernel (k := s.conjunto.kernel.comun) ?_ hS ha hcae
      rw [← hhilos]
      exact hL
  fiel := by
    rw [Completo.equipo, hmem]
    exact hI.fiel

/-- A module reads. -/
theorem entero_lee (hI : Entero es s) (h : SistemaCompleto.paso c cpus (.lee i m) s = some s')
    (hdef : s'.conjunto.kernel.comun.indefinido = false) :
    Entero (es ++ [.kernel i (.moduloLee m)]) s' := by
  have hdef₀ := definido_antes h hdef
  obtain ⟨x, hx, h⟩ := lee_casos h
  obtain ⟨k, l, r, hk, hg, hs, hmem⟩ := kernel_casos hx
  have hm : .modulo m ∈ s.conjunto.kernel.hilos := by
    rw [hk]
    exact List.mem_append_right _ List.mem_cons_self
  have hL : Lineas ⟨k, l ++ .modulo m :: r⟩ := by
    have hL := hI.gobierno.regido.lineas
    rw [hk] at hL
    exact hL
  have hS : Sincronia (l ++ .modulo m :: r) s.nucleos := by
    have hS := hI.sincronia
    rw [hk] at hS
    exact hS
  have hxdef : x.kernel.comun.indefinido = false := by
    rcases recibe_casos h with ⟨p, -, -, -, hs', -⟩ | ⟨-, rfl⟩
    · rw [hs'] at hdef
      exact hdef
    · exact hdef
  have hG : Gobierno (es ++ [.kernel i (.moduloLee m)]) x :=
    gobierno_paso hI.gobierno (medido_de_rafaga rfl) hx hxdef
  have hequipo : ({ s with conjunto := x } : Completo cfg).equipo = s.equipo := by
    rw [Completo.equipo, hmem]
    rfl
  have hfd : (m.leer (k.enviados (.dispatch m.fdDispatch))).fdDispatch = m.fdDispatch := by
    rw [ModuloCpu.leer]
    repeat' split
    all_goals rfl
  rcases recibe_casos h with ⟨p, hleido, hespera, hy, hs', -⟩ | ⟨hno, rfl⟩
  · have hP := promete_recibe hI hdef₀ hm hleido (libre_de_lectura hg hespera)
    rw [hequipo] at hy
    have hsolo := SistemaAislamiento.solo_recibe hI.fiel hP hy
    constructor
    · rw [hs']
      refine gobierno_solo ?_ hG
      rw [hmem]
      exact hsolo
    · rw [hs', hs]
      obtain ⟨-, z, -, hy'⟩ := SistemaCpus.recibe_casos hy
      obtain ⟨hpropia, hotros⟩ := nucleos_conCpu hy'
      refine sincronia_modulo hL hS hfd hotros ?_
      rw [hk] at hleido
      rw [hpropia, ModuloCpu.leer, hleido, hespera]
      rfl
    · exact SistemaAislamiento.fiel_recibe hI.fiel hP hy
  · refine ⟨hG, ?_, ?_⟩
    · dsimp only
      rw [hs]
      refine sincronia_modulo hL hS hfd (fun _ _ => rfl) ?_
      rw [hS.modulos m (List.mem_append_right _ List.mem_cons_self), ModuloCpu.leer]
      rw [hk] at hno
      split
      · next p hleido => rw [hno p hleido, if_pos rfl]
      · rfl
      · rfl
    · change Fiel ({ s with conjunto := x } : Completo cfg).equipo
      rw [hequipo]
      exact hI.fiel

/-- A module asks for a process. -/
theorem entero_pide (hI : Entero es s) (h : SistemaCompleto.paso c cpus (.pide i m) s = some s')
    (hdef : s'.conjunto.kernel.comun.indefinido = false) : ∃ es', Entero es' s' := by
  obtain ⟨_, _, _, _, path, tamanio, -, -, -, -, hx, hs'⟩ := pide_casos h
  obtain ⟨k, l, r, hk, -, hs, hmem⟩ := kernel_casos hx
  have hL := hI.gobierno.regido.lineas
  have hS := hI.sincronia
  rw [hk] at hL hS
  have hO : Ordenado c (.kernel i (.moduloInitProc m path tamanio)) s.conjunto :=
    medido_de_rafaga rfl
  refine ⟨_, gobierno_paso hI.gobierno hO hx hdef, ?_, ?_⟩
  · rw [hs', hs]
    exact sincronia_modulo hL hS rfl (fun _ _ => rfl)
      (hS.modulos m (List.mem_append_right _ List.mem_cons_self))
  · rw [hs', Completo.equipo, hmem]
    exact hI.fiel

/-- The turn of a module, as the CPU takes it. -/
theorem giro_de_gira (hI : Entero es s) (hm : .modulo m ∈ s.conjunto.kernel.hilos)
    {pendiente : Bool} {y : Equipo cfg ℕ} {g : Giro}
    (hy : SistemaCpus.paso cpus (.gira m.fdDispatch pendiente) s.equipo = some y)
    (hg : (y.vidas m.pid).giros.getLast? = some g) :
    ∃ pc x, (s.nucleos m.fdDispatch).rafaga = some (m.pid, pc) ∧
      m.rafaga.map Prod.snd = some m.pid ∧
      giro (maquina (cpus m.fdDispatch) m.pid) pendiente (s.equipo.cpu m.fdDispatch) pc =
        some (g, x) ∧
      y = { s.equipo.conCpu m.fdDispatch x (g.sigue.map fun pc' => (m.pid, pc')) with
        vidas := Function.update s.vidas m.pid ((s.vidas m.pid).con g) } := by
  obtain ⟨pid, pc, g', x, hraf, hgiro, rfl⟩ := SistemaCpus.gira_casos hy
  have hpid : m.rafaga.map Prod.snd = some pid := by
    rw [← hI.sincronia.modulos m hm]
    exact congrArg (Option.map Prod.fst) hraf
  obtain rfl : m.pid = pid := by
    rw [ModuloCpu.pid, hpid]
    rfl
  have hultimo : g' = g := by
    dsimp only at hg
    rw [Function.update_self, SistemaCpus.Vida.con, List.getLast?_concat] at hg
    exact Option.some.inj hg
  subst hultimo
  exact ⟨pc, x, hraf, hpid, hgiro, rfl⟩

theorem responde_destino {r : Respuesta} {a : Accion} (h : respuestaDe m r = some a)
    (k : Kernel) : (programa c).origen a = .modulo m ∧ deRafaga a = true ∧
      ∃ m', (programa c).destino k a = [.modulo m'] ∧ m'.fdDispatch = m.fdDispatch ∧
        m'.rafaga = none := by
  rw [respuestaDe] at h
  split at h
  · cases h
    exact ⟨rfl, rfl, _, rfl, rfl, rfl⟩
  · obtain ⟨motivo, -, rfl⟩ := Option.map_eq_some_iff.mp h
    exact ⟨rfl, rfl, _, rfl, rfl, rfl⟩

/-- A turn, with the answer of the module if it is the last one of its burst. -/
theorem entero_gira (halg : ∀ i, (cpus i).algoritmoCache ≠ .otro) (hI : Entero es s)
    (hP : Previsto c (.gira i m) s) (h : SistemaCompleto.paso c cpus (.gira i m) s = some s')
    (hdef : s'.conjunto.kernel.comun.indefinido = false) : ∃ es', Entero es' s' := by
  obtain ⟨hhilo, -, -, y, g, hy, hg, -, hequipo, -, hcierra⟩ := gira_casos h
  have hm : .modulo m ∈ s.conjunto.kernel.hilos := List.mem_of_getElem? hhilo
  obtain ⟨pc, x, -, hpid, -, hy'⟩ := giro_de_gira hI hm hy hg
  have hG : Gobierno es { s.conjunto with memoria := y.memoria } :=
    gobierno_solo (SistemaAislamiento.solo_gira halg hI.fiel hP hy) hI.gobierno
  have hF : Fiel s'.equipo := by
    rw [hequipo]
    exact SistemaAislamiento.fiel_gira halg hI.fiel hP hy
  obtain ⟨hpropia, hotros⟩ := nucleos_conCpu (hequipo.trans hy')
  rcases hcierra with ⟨u, pc', nuevas, hsal, hs'⟩ | ⟨u, r, nuevas, a, hsal, ha, hx⟩
  · obtain ⟨l, r, hhilos⟩ := List.append_of_mem hm
    have hL : Lineas ⟨s.conjunto.kernel.comun, l ++ .modulo m :: r⟩ := by
      rw [← hhilos]
      exact hI.gobierno.regido.lineas
    have hS := hI.sincronia
    rw [hhilos] at hS
    refine ⟨es, hs' ▸ hG, ?_, hF⟩
    rw [hs']
    dsimp only
    rw [hhilos]
    refine sincronia_modulo hL hS rfl hotros ?_
    rw [hpropia, Giro.sigue, hsal, hpid]
    rfl
  · obtain ⟨k, l, r', hk, -, hs, -⟩ := kernel_casos hx
    obtain ⟨hor, hraf, m', hdest, hfd, hlibre⟩ := responde_destino (c := c) ha k
    have hL := hI.gobierno.regido.lineas
    have hS := hI.sincronia
    dsimp only at hk
    rw [hk, hor] at hL hS
    have hO : Ordenado c (.kernel i a) { s.conjunto with memoria := y.memoria } :=
      medido_de_rafaga hraf
    refine ⟨_, gobierno_paso hG hO hx hdef, ?_, hF⟩
    rw [hs, hdest]
    refine sincronia_modulo hL hS hfd hotros ?_
    rw [hpropia, Giro.sigue, hsal, hlibre]
    rfl

theorem entero_atiende {env : Entorno} {j : ℕ} (hI : Entero es s)
    (hP : Previsto c (.atiende env j) s) (hfallas : env.SinFallas cfg)
    (h : SistemaCompleto.paso c cpus (.atiende env j) s = some s')
    (hdef : s'.conjunto.kernel.comun.indefinido = false) : ∃ es', Entero es' s' := by
  have hdef₀ := definido_antes h hdef
  obtain ⟨x, y, hx, hy, hz, hequipo, hnucleos, -⟩ := atiende_casos h
  have hO : Ordenado c (.atiende env j) s.conjunto := hP.1
  obtain ⟨hilo, pet, envios, m, hx', -, hs'⟩ := SistemaConjunto.atiende_casos hz
  have hresp : x.respuesta = none := by
    cases hx.symm.trans hx'
    rfl
  refine ⟨_, gobierno_paso hI.gobierno hO hz hdef, ?_, ?_⟩
  · rw [hs', hnucleos]
    exact hI.sincronia
  · rw [hequipo]
    exact SistemaAislamiento.fiel_atiende hI.fiel (promete_atiende hI hdef₀ hP hx hresp) hfallas hy

theorem entero_paso (halg : ∀ i, (cpus i).algoritmoCache ≠ .otro) (hI : Entero es s)
    (hP : Previsto c e s) (hfallas : SinFallas cfg e)
    (h : SistemaCompleto.paso c cpus e s = some s')
    (hdef : s'.conjunto.kernel.comun.indefinido = false) : ∃ es', Entero es' s' := by
  cases e with
  | kernel i a =>
    have hO : Ordenado c (.kernel i a) s.conjunto := medido_de_previsto hP
    have hcae : ∀ m, a = .moduloDesconecta m → m.rafaga = none := by
      rintro m rfl
      exact Option.isNone_iff_eq_none.mp hP.2
    rw [SistemaCompleto.paso] at h
    split at h
    · cases h
    · next hraf =>
        obtain ⟨hx, hs'⟩ := actua_casos h
        obtain ⟨_, _, _, -, -, -, hmem⟩ := kernel_casos hx
        rw [hs']
        exact ⟨_, entero_kernel hI (by simpa using hraf) hcae hO rfl hx hmem hdef⟩
  | recibe i a j =>
    obtain ⟨x, hx, rfl⟩ := Option.map_eq_some_iff.mp h
    obtain ⟨_, _, _, _, -, hespera, -, hmueve⟩ := SistemaConjunto.recibe_casos hx
    obtain ⟨_, _, _, -, -, hx'⟩ := SistemaConjunto.mueve_casos hmueve
    have hesp : SistemaConjunto.espera a ≠ none := by
      rw [hespera]
      exact Option.some_ne_none _
    have hO : Ordenado c (.recibe i a j) s.conjunto := medido_de_espera hesp
    refine ⟨_, entero_kernel hI ?_ ?_ hO rfl hx (by rw [hx']) hdef⟩
    · cases a <;> first | rfl | exact absurd rfl hesp
    · rintro m rfl
      exact absurd rfl hesp
  | atiende env j => exact entero_atiende hI hP hfallas h hdef
  | lee i m => exact ⟨_, entero_lee hI h hdef⟩
  | pide i m => exact entero_pide hI h hdef
  | gira i m => exact entero_gira halg hI hP h hdef

/-- A step of the whole system is one of the CPUs with Memoria that the kernel has promised, or
they do not see it. -/
theorem proyecta_paso (hI : Entero es s) (hP : Previsto c e s) (hfallas : SinFallas cfg e)
    (h : SistemaCompleto.paso c cpus e s = some s')
    (hdef : s'.conjunto.kernel.comun.indefinido = false) :
    s'.equipo = s.equipo ∨ ∃ e', (Promete e' s.equipo ∧ SistemaCpus.SinFallas cfg e') ∧
      SistemaCpus.paso cpus e' s.equipo = some s'.equipo := by
  have hdef₀ := definido_antes h hdef
  cases e with
  | kernel i a =>
    rw [SistemaCompleto.paso] at h
    split at h
    · cases h
    · obtain ⟨hx, hs'⟩ := actua_casos h
      obtain ⟨_, _, _, -, -, -, hmem⟩ := kernel_casos hx
      left
      rw [hs', Completo.equipo, hmem]
      rfl
  | recibe i a j =>
    obtain ⟨x, hx, rfl⟩ := Option.map_eq_some_iff.mp h
    obtain ⟨_, _, _, _, -, -, -, hmueve⟩ := SistemaConjunto.recibe_casos hx
    obtain ⟨_, _, _, -, -, hx'⟩ := SistemaConjunto.mueve_casos hmueve
    left
    rw [Completo.equipo, hx']
    rfl
  | atiende env j =>
    obtain ⟨x, y, hx, hy, hz, hequipo, -, -⟩ := atiende_casos h
    obtain ⟨hilo, pet, envios, m, hx', -, -⟩ := SistemaConjunto.atiende_casos hz
    have hresp : x.respuesta = none := by
      cases hx.symm.trans hx'
      rfl
    right
    rw [hequipo]
    exact ⟨.atiende env x.peticion, ⟨promete_atiende hI hdef₀ hP hx hresp, hfallas⟩, hy⟩
  | lee i m =>
    obtain ⟨x, hx, h⟩ := lee_casos h
    obtain ⟨k, l, r, hk, hg, -, hmem⟩ := kernel_casos hx
    have hequipo : ({ s with conjunto := x } : Completo cfg).equipo = s.equipo := by
      rw [Completo.equipo, hmem]
      rfl
    rcases recibe_casos h with ⟨p, hleido, hespera, hy, -, -⟩ | ⟨-, rfl⟩
    · have hm : .modulo m ∈ s.conjunto.kernel.hilos := by
        rw [hk]
        exact List.mem_append_right _ List.mem_cons_self
      right
      rw [hequipo] at hy
      exact ⟨.recibe m.fdDispatch p.pid p.programCounter,
        ⟨promete_recibe hI hdef₀ hm hleido (libre_de_lectura hg hespera), trivial⟩, hy⟩
    · exact Or.inl hequipo
  | pide i m =>
    obtain ⟨_, _, _, _, _, _, -, -, -, -, hx, hs'⟩ := pide_casos h
    obtain ⟨_, _, _, -, -, -, hmem⟩ := kernel_casos hx
    left
    rw [hs', Completo.equipo, hmem]
    rfl
  | gira i m =>
    obtain ⟨-, -, -, y, g, hy, -, -, hequipo, -, -⟩ := gira_casos h
    right
    rw [hequipo]
    exact ⟨.gira m.fdDispatch (interrumpido m), ⟨hP, trivial⟩, hy⟩

theorem entero_inicial (c : ConfigKernel) (path : List Byte) (tamanio : ℤ)
    (absoluto : Option (List Byte)) (entradasTlb entradasCache : ℕ → ℤ) :
    Entero [] (SistemaCompleto.arranque cfg c path tamanio absoluto entradasTlb entradasCache) where
  gobierno := ⟨SistemaAcuerdo.acuerdo_inicial cfg c path tamanio absoluto,
    SistemaResidencia.residencia_inicial cfg c path tamanio absoluto,
    regido_inicial c path tamanio absoluto⟩
  sincronia := by
    constructor
    · intro m hm
      simp [SistemaCompleto.arranque, SistemaConjunto.arranque, KernelHilos.arranque] at hm
    · exact fun fd _ => rfl
  fiel := SistemaAislamiento.fiel_arranque cfg entradasTlb entradasCache

end Pasos

section Corridas

variable {es : List Evento} {path : List Byte} {tamanio : ℤ} {absoluto : Option (List Byte)}
  {entradasTlb entradasCache : ℕ → ℤ}

/-- Every run of the whole system is, for the CPUs and Memoria, a run in which the kernel keeps
what they need of it. -/
theorem kernel_cumple (halg : ∀ i, (cpus i).algoritmoCache ≠ .otro)
    (hC : Cumple (SistemaCompleto.paso c cpus) (Previsto c) es
      (SistemaCompleto.arranque cfg c path tamanio absoluto entradasTlb entradasCache))
    (hfallas : ∀ e ∈ es, SinFallas cfg e)
    (hrun : correr (SistemaCompleto.paso c cpus) es
      (SistemaCompleto.arranque cfg c path tamanio absoluto entradasTlb entradasCache) = some s)
    (hdef : s.conjunto.kernel.comun.indefinido = false) :
    ∃ es', Cumple (SistemaCpus.paso cpus) (fun e s => Promete e s ∧ SistemaCpus.SinFallas cfg e) es'
        (SistemaCpus.arranque cfg entradasTlb entradasCache) ∧
      correr (SistemaCpus.paso cpus) es' (SistemaCpus.arranque cfg entradasTlb entradasCache) =
        some s.equipo := by
  refine corrida_proyectada (f := Completo.equipo) (I := fun s => ∃ es', Entero es' s)
    (D := fun s => s.conjunto.kernel.comun.indefinido = false) (fun _ _ _ => definido_antes) ?_
    ⟨[], entero_inicial c path tamanio absoluto entradasTlb entradasCache⟩
    (cumple_con hC hfallas) hrun hdef
  rintro e s s' ⟨es', hI⟩ hP h hdef
  exact ⟨entero_paso halg hI hP.1 hP.2 h hdef, proyecta_paso hI hP.1 hP.2 h hdef⟩

theorem kernel_cumple_ejemplo :
    ∃ (s : Completo configEjemplo) (es' : List (SistemaCpus.Evento ℕ)),
      correr (SistemaCompleto.paso configuracion cpusEjemplo) corridaEjemplo inicioEjemplo =
        some s ∧
      Cumple (SistemaCpus.paso cpusEjemplo) (fun e s => Promete e s ∧
          SistemaCpus.SinFallas configEjemplo e) es'
        (SistemaCpus.arranque configEjemplo (fun _ => 1) fun _ => 1) ∧
      correr (SistemaCpus.paso cpusEjemplo) es'
        (SistemaCpus.arranque configEjemplo (fun _ => 1) fun _ => 1) = some s.equipo := by
  have hrun : ((correr (SistemaCompleto.paso configuracion cpusEjemplo) corridaEjemplo
      inicioEjemplo).any fun s => decide (s.conjunto.kernel.comun.indefinido = false)) = true := by
    decide +kernel
  obtain ⟨s, hs, hobs⟩ := (Option.any_eq_true _ _).mp hrun
  obtain ⟨es', h⟩ := kernel_cumple algoritmos_ejemplo previsto_ejemplo sin_fallas_corrida hs
    (of_decide_eq_true hobs)
  exact ⟨s, es', hs, h⟩

end Corridas

end SistemaPromesas

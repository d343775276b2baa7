import Tpssoo.SistemaSecuencial

/-!
# A process that has ended takes no more turns

The kernel never counts a process more often than it did, in the queues of those that go on and
in the hands of the threads that will put it in one. The response to an `EXIT` or to an error
takes the process out of them, so no CPU runs it again.
-/
namespace SistemaTerminacion

open EnterosC Protocolo KernelFunciones KernelHilos KernelLargoPlazo KernelCpus KernelEjecucion
  KernelLineas KernelContadores MemoriaEstado MemoriaPeticiones CpuEstado CpuGiros CpuSecuencia
  SistemaCompleto SistemaPromesas SistemaSecuencial Entrelazado Tartamudeo
open KernelEstado hiding Cpu
open SistemaCpus (Nucleo Corre)

/-- The motives after which the kernel finalises the process. -/
def fatal : Motivo → Bool
  | .exit | .errorSegFault | .otro => true
  | .bloqueanteIo _ _ | .bloqueanteDumpMemory | .interrupcion => false

/-- The last turn of a process ended it. -/
def acabada (pid : ℤ) (gs : List Giro) : Bool := (gs.getLast?.bind (contesta pid)).any fatal

/-- How many times the kernel has a process among those that go on. -/
def cuenta (s : Sistema Kernel Hilo) (p : ℤ) : ℕ :=
  peso s.comun p + (s.hilos.filterMap enMano).count p

/-- A process that has ended waits for the kernel to take its response, or has gone. -/
def Terminan (k : Sistema Kernel Hilo) (vs : ℤ → List Giro) : Prop :=
  ∀ p, acabada p (vs p) = true →
    (∃ fd pc motivo, .respuestaEjecucion p pc motivo ∈ k.comun.entrantes fd) ∨
      cuenta k p = 0 ∧ p < k.comun.ultimoPid

section Kernel

variable {c : ConfigKernel} {k : Kernel} {l r : List Hilo} {a : Accion} {ns : ℕ → Nucleo}
  {vs : ℤ → List Giro} {p : ℤ}

theorem cuenta_medio (k : Kernel) (ds : List Hilo) : cuenta ⟨k, l ++ (ds ++ r)⟩ p =
    peso k p + (ds.filterMap enMano).count p + ((l ++ r).filterMap enMano).count p := by
  simp only [cuenta, List.filterMap_append, List.count_append]
  omega

/-- What has gone does not come back. -/
theorem cuenta_paso (hR : Regido ⟨k, l ++ (programa c).origen a :: r⟩)
    (hg : (programa c).guarda k a) (hp : p < k.ultimoPid)
    (h : cuenta ⟨k, l ++ (programa c).origen a :: r⟩ p = 0) :
    cuenta ⟨(programa c).efecto k a, l ++ ((programa c).destino k a ++ r)⟩ p = 0 := by
  have hefecto : peso ((programa c).efecto k a) p +
        (((programa c).destino k a).filterMap enMano).count p ≤
      peso k p + ([(programa c).origen a].filterMap enMano).count p := by
    have hcuenta : _ ∨ _ := cuenta_efecto (c := c) (k := k) (a := a) (p := p) ?_
      (respuesta_en_exec hR.asignados) ?_
    · rcases hcuenta with hcuenta | ⟨hne, -⟩
      · exact hcuenta
      · exact absurd hne hp.ne
    · rintro q susp rfl
      exact hR.asignados.planificador.candidato hg.1 _
        (List.mem_append_right _ List.mem_cons_self) q susp rfl
    · exact Nat.eq_zero_of_add_eq_zero_right (hR.asignados.unaVez.nuevos k.ultimoPid le_rfl)
  rw [← List.singleton_append (x := (programa c).origen a), cuenta_medio] at h
  rw [cuenta_medio]
  omega

/-- The response to a fatal motive takes the process out. -/
theorem cuenta_fatal {cpu fd : ℕ} {pid pc : ℤ} {motivo : Motivo} (hf : fatal motivo = true)
    (hR : Regido ⟨k, l ++ .escuchaRecibe cpu (some fd) :: r⟩)
    (hg : (programa c).guarda k (.recibeRespuesta cpu fd pid pc motivo)) :
    cuenta ⟨(programa c).efecto k (.recibeRespuesta cpu fd pid pc motivo),
      l ++ ((programa c).destino k (.recibeRespuesta cpu fd pid pc motivo) ++ r)⟩ pid = 0 := by
  obtain ⟨hejecuta, -, hefecto, hdestino⟩ := respuesta_casos hR hg
  have hexec := hR.asignados.ejecucion.enCola cpu pid hejecuta
  have huna : cuenta ⟨k, l ++ .escuchaRecibe cpu (some fd) :: r⟩ pid ≤ 1 :=
    hR.asignados.unaVez.todos pid
  have hsale := peso_sacar (p := pid) hexec
  have hpeso : peso (((recibir k fd).conPcb pid (actualizarRafaga c k.reloj pc motivo)).quitar
      .running pid) pid = peso (k.quitar .running pid) pid :=
    peso_conPcb (k := k.quitar .running pid) (actualizar_estado c k.reloj pc motivo)
  have hmano : [segunMotivo cpu pid motivo].filterMap enMano = [] := by
    cases motivo <;> first | rfl | cases hf
  rw [← List.singleton_append (x := Hilo.escuchaRecibe cpu (some fd)), cuenta_medio] at huna
  rw [cuenta_medio, hefecto, hdestino, hpeso, hmano]
  simp only [if_true, List.count_nil] at hsale ⊢
  omega

/-- An action of the kernel, or of a module that does not end its burst. -/
theorem terminan_kernel (hR : Regido ⟨k, l ++ (programa c).origen a :: r⟩)
    (hI : Continua ⟨k, l ++ (programa c).origen a :: r⟩ ns vs)
    (hT : Terminan ⟨k, l ++ (programa c).origen a :: r⟩ vs) (hg : (programa c).guarda k a)
    (ha : ∀ m pc motivo, a ≠ .moduloTermina m pc motivo)
    (ha' : ∀ m pc, a ≠ .moduloFallaFetch m pc) :
    Terminan ⟨(programa c).efecto k a, l ++ ((programa c).destino k a ++ r)⟩ vs := by
  intro p hacaba
  have hvive : p < k.ultimoPid := by
    refine (hI.nuevos p fun hnil => ?_).1
    rw [hnil] at hacaba
    cases hacaba
  have hult : k.ultimoPid ≤ ((programa c).efecto k a).ultimoPid := ultimoPid_efecto
  rcases hT p hacaba with ⟨fd, pc, motivo, hresp⟩ | ⟨hcuenta, -⟩
  · cases hto : tocaRespuestas a with
    | false => exact Or.inl ⟨fd, pc, motivo, (respuestas_efecto hto hg).mpr hresp⟩
    | true =>
      cases a with
      | recibeRespuesta cpu fd' pid' pc' motivo' =>
        obtain ⟨-, hent, hefecto, -⟩ := respuesta_casos hR hg
        by_cases heq : fd = fd' ∧ p = pid'
        · obtain ⟨rfl, rfl⟩ := heq
          have hmem : .respuestaEjecucion p pc' motivo' ∈ k.entrantes fd := by
            rw [hent]
            exact List.mem_singleton_self _
          obtain ⟨g, hg', -, hcontesta⟩ := hI.respuestas fd p pc' motivo' hmem
          rw [acabada, hg', Option.bind_some, hcontesta] at hacaba
          exact Or.inr ⟨cuenta_fatal hacaba hR hg, hvive.trans_le hult⟩
        · refine Or.inl ⟨fd, pc, motivo, (respuesta_quita hent hefecto fd _).mpr ⟨hresp, ?_⟩⟩
          rintro rfl hx
          cases hx
          exact heq ⟨rfl, rfl⟩
      | moduloTermina m pc motivo => exact absurd rfl (ha m pc motivo)
      | moduloFallaFetch m pc => exact absurd rfl (ha' m pc)
      | _ => cases hto
  · exact Or.inr ⟨cuenta_paso hR hg hvive hcuenta, hvive.trans_le hult⟩

end Kernel

variable {cfg : Config} {c : ConfigKernel} {cpus : ℕ → Cpu} {s s' : Completo cfg}

section Pasos

variable {es : List SistemaConjunto.Evento} {e : Evento} {i : ℕ} {m : ModuloCpu} {p : ℤ}

/-- A process that has ended is in no burst. -/
theorem Terminan.quieta (hT : Terminan s.conjunto.kernel (girosDe s)) (hE : Entero es s)
    (hm : .modulo m ∈ s.conjunto.kernel.hilos) (hp : m.rafaga.map Prod.snd = some p) :
    acabada p (girosDe s p) = false := by
  by_contra hacaba
  have hR := hE.gobierno.regido
  rcases hT p (by simpa using hacaba) with ⟨fd, pc, motivo, hresp⟩ | ⟨hcuenta, -⟩
  · exact sin_respuestas hR hm hp hresp
  · have hexec : 0 < (s.conjunto.kernel.comun.colas .running).count p :=
      List.count_pos_iff.mpr (exec_de_modulo hR hm hp)
    rw [cuenta, peso] at hcuenta
    omega

/-- A turn, with the answer of the module if it is the last one of its burst. -/
theorem terminan_gira (hE : Entero es s) (hT : Terminan s.conjunto.kernel (girosDe s))
    (h : SistemaCompleto.paso c cpus (.gira i m) s = some s') :
    Terminan s'.conjunto.kernel (girosDe s') := by
  obtain ⟨hhilo, -, -, y, g, hy, hg, -, hequipo, -, hcierra⟩ := gira_casos h
  have hm : .modulo m ∈ s.conjunto.kernel.hilos := List.mem_of_getElem? hhilo
  obtain ⟨pc, x, hraf, hpid, hgiro, hy'⟩ := giro_de_gira hE hm hy hg
  have hpend : g.pendiente = interrumpido m := congrArg Prod.snd (entrada_giro hgiro)
  rw [hy'] at hequipo
  rw [giros_con hequipo]
  intro p hacaba
  rcases hcierra with ⟨u, pc', nuevas, hsal, hs'⟩ | ⟨u, r, nuevas, a, hsal, ha, hx⟩
  · rw [hs']
    by_cases hp : p = m.pid
    · rw [hp, Function.update_self, acabada, List.getLast?_concat, Option.bind_some, contesta,
        hsal] at hacaba
      cases hacaba
    · rw [Function.update_of_ne hp] at hacaba
      exact hT p hacaba
  · obtain ⟨k, l, r', hk, hguarda, hs, -⟩ := kernel_casos hx
    obtain ⟨motivo, -, hefecto⟩ := responde_contesta (c := c) ha hsal hpend
    dsimp only at hk
    rw [hs]
    have hent : ∀ fd x, x ∈ k.entrantes fd → x ∈ ((programa c).efecto k a).entrantes fd := by
      intro fd x hx
      rw [hefecto, entregar]
      dsimp only
      by_cases hfd : fd = m.fdDispatch
      · rw [hfd, Function.update_self]
        exact List.mem_append_left _ (hfd ▸ hx)
      · rwa [Function.update_of_ne hfd]
    by_cases hp : p = m.pid
    · refine Or.inl ⟨m.fdDispatch, proximo g, motivo, ?_⟩
      dsimp only
      rw [hp, hefecto, entregar]
      dsimp only
      rw [Function.update_self]
      exact List.mem_append_right _ (List.mem_singleton_self _)
    · rw [Function.update_of_ne hp] at hacaba
      rcases hT p hacaba with ⟨fd, pc', motivo', hresp⟩ | ⟨hcuenta, hvive⟩
      · rw [hk] at hresp
        exact Or.inl ⟨fd, pc', motivo', hent fd _ hresp⟩
      · have hR := hE.gobierno.regido
        rw [hk] at hR hcuenta hvive
        have hult : k.ultimoPid ≤ ((programa c).efecto k a).ultimoPid := ultimoPid_efecto
        exact Or.inr ⟨cuenta_paso hR hguarda hvive hcuenta, hvive.trans_le hult⟩

theorem terminan_paso (hE : Entero es s) (hI : Continua s.conjunto.kernel s.nucleos (girosDe s))
    (hT : Terminan s.conjunto.kernel (girosDe s)) (h : SistemaCompleto.paso c cpus e s = some s')
    (hdef : s'.conjunto.kernel.comun.indefinido = false) :
    Terminan s'.conjunto.kernel (girosDe s') := by
  rcases mueve_de_paso h with ⟨env, j, rfl⟩ | ⟨i, m, rfl⟩ | ⟨k, l, r, a, hk, hg, hs, ha, ha', hv⟩
  · rw [giros_atiende hE hI h (definido_antes h hdef)]
    obtain ⟨x, y, -, -, hz, -⟩ := atiende_casos h
    obtain ⟨hilo, pet, envios, m, -, -, hs'⟩ := SistemaConjunto.atiende_casos hz
    rw [hs']
    exact hT
  · exact terminan_gira hE hT h
  · have hR := hE.gobierno.regido
    rw [hk] at hR hI hT
    have hgiros : girosDe s' = girosDe s := by
      funext p
      rw [girosDe, girosDe, hv]
    rw [hs, hgiros]
    exact terminan_kernel hR hI hT hg ha ha'

/-- A process that has ended takes no turn. -/
theorem giros_paso (hE : Entero es s) (hI : Continua s.conjunto.kernel s.nucleos (girosDe s))
    (hT : Terminan s.conjunto.kernel (girosDe s)) (h : SistemaCompleto.paso c cpus e s = some s')
    (hdef : s'.conjunto.kernel.comun.indefinido = false)
    (hacaba : acabada p (girosDe s p) = true) : girosDe s' p = girosDe s p := by
  rcases mueve_de_paso h with ⟨env, j, rfl⟩ | ⟨i, m, rfl⟩ | ⟨k, l, r, a, -, -, -, -, -, hv⟩
  · rw [giros_atiende hE hI h (definido_antes h hdef)]
  · obtain ⟨hhilo, -, -, y, g, hy, hg, -, hequipo, -⟩ := gira_casos h
    have hm : .modulo m ∈ s.conjunto.kernel.hilos := List.mem_of_getElem? hhilo
    obtain ⟨pc, x, -, hpid, -, hy'⟩ := giro_de_gira hE hm hy hg
    rw [hy'] at hequipo
    rw [giros_con hequipo]
    refine Function.update_of_ne ?_ _ _
    rintro rfl
    rw [hT.quieta hE hm hpid] at hacaba
    cases hacaba
  · rw [girosDe, girosDe, hv]

end Pasos

section Corridas

variable {es es' : List Evento} {path : List Byte} {tamanio : ℤ} {absoluto : Option (List Byte)}
  {entradasTlb entradasCache : ℕ → ℤ} {pid : ℤ}

/-- What holds of the whole system after a run. -/
structure Vigente (s : Completo cfg) : Prop where
  entero : ∃ es, Entero es s
  continua : Continua s.conjunto.kernel s.nucleos (girosDe s)
  terminan : Terminan s.conjunto.kernel (girosDe s)

theorem vigente_paso (halg : ∀ i, (cpus i).algoritmoCache ≠ .otro) (hV : Vigente s) {e : Evento}
    (hP : Previsto c e s) (hfallas : SinFallas cfg e)
    (h : SistemaCompleto.paso c cpus e s = some s')
    (hdef : s'.conjunto.kernel.comun.indefinido = false) : Vigente s' := by
  obtain ⟨es, hE⟩ := hV.entero
  exact ⟨entero_paso halg hE hP hfallas h hdef, continua_paso hE hV.continua h hdef,
    terminan_paso hE hV.continua hV.terminan h hdef⟩

theorem vigente_corrida (halg : ∀ i, (cpus i).algoritmoCache ≠ .otro)
    (hC : Cumple (SistemaCompleto.paso c cpus) (Previsto c) es
      (SistemaCompleto.arranque cfg c path tamanio absoluto entradasTlb entradasCache))
    (hfallas : ∀ e ∈ es, SinFallas cfg e)
    (hrun : correr (SistemaCompleto.paso c cpus) es
      (SistemaCompleto.arranque cfg c path tamanio absoluto entradasTlb entradasCache) = some s)
    (hdef : s.conjunto.kernel.comun.indefinido = false) : Vigente s := by
  refine invariante_mientras (I := Vigente)
    (D := fun s => s.conjunto.kernel.comun.indefinido = false) (fun _ _ _ => definido_antes) ?_ ?_
    (cumple_con hC hfallas) hrun hdef
  · intro e s s' hV hP h hdef
    exact vigente_paso halg hV hP.1 hP.2 h hdef
  · refine ⟨⟨[], entero_inicial c path tamanio absoluto entradasTlb entradasCache⟩,
      continua_inicial c path tamanio absoluto entradasTlb entradasCache, ?_⟩
    intro p hacaba
    cases hacaba

/-- In every run, a process whose last turn ended it, with `EXIT` or an error, takes no other
turn, and no CPU runs it. -/
theorem sin_giros_tras_acabar (halg : ∀ i, (cpus i).algoritmoCache ≠ .otro)
    (hC : Cumple (SistemaCompleto.paso c cpus) (Previsto c) es
      (SistemaCompleto.arranque cfg c path tamanio absoluto entradasTlb entradasCache))
    (hfallas : ∀ e ∈ es, SinFallas cfg e)
    (hrun : correr (SistemaCompleto.paso c cpus) es
      (SistemaCompleto.arranque cfg c path tamanio absoluto entradasTlb entradasCache) = some s)
    (hacaba : acabada pid (s.vidas pid).giros = true)
    (hC' : Cumple (SistemaCompleto.paso c cpus) (Previsto c) es' s)
    (hfallas' : ∀ e ∈ es', SinFallas cfg e)
    (hrun' : correr (SistemaCompleto.paso c cpus) es' s = some s')
    (hdef : s'.conjunto.kernel.comun.indefinido = false) :
    (s'.vidas pid).giros = (s.vidas pid).giros ∧
      ∀ fd, (s'.nucleos fd).rafaga.map Prod.fst ≠ some pid := by
  have hdef₀ : s.conjunto.kernel.comun.indefinido = false :=
    antes_de_corrida (D := fun s => s.conjunto.kernel.comun.indefinido = false)
      (fun _ _ _ => definido_antes) hrun' hdef
  have hV := vigente_corrida halg hC hfallas hrun hdef₀
  have hfin : Vigente s' ∧ girosDe s' pid = girosDe s pid := by
    refine invariante_mientras (I := fun x => Vigente x ∧ girosDe x pid = girosDe s pid)
      (D := fun s => s.conjunto.kernel.comun.indefinido = false) (fun _ _ _ => definido_antes) ?_
      ⟨hV, rfl⟩ (cumple_con hC' hfallas') hrun' hdef
    rintro e x x' ⟨hV, hgiros⟩ hP h hdef
    obtain ⟨es, hE⟩ := hV.entero
    refine ⟨vigente_paso halg hV hP.1 hP.2 h hdef, ?_⟩
    have hacaba' : acabada pid (girosDe x pid) = true := by
      rw [hgiros]
      exact hacaba
    exact (giros_paso hE hV.continua hV.terminan h hdef hacaba').trans hgiros
  obtain ⟨hV', hgiros⟩ := hfin
  refine ⟨hgiros, fun fd hraf => ?_⟩
  obtain ⟨es, hE⟩ := hV'.entero
  obtain ⟨m, hm, -, hpid⟩ := hE.sincronia.modulo hraf
  have hno := hV'.terminan.quieta hE hm hpid
  rw [hgiros] at hno
  exact Bool.false_ne_true (hno.symm.trans hacaba)

/-- The kernel takes the `EXIT`, and puts the process in `cola_exit`. -/
def tomaExit : List Evento :=
  [Accion.recibeRespuesta 0 0 0 4 .exit, .escuchaAgregaExit 0 0,
    .escuchaCambiaExit 0 0].flatMap conMemoria

/-- The program of the example has ended in its `EXIT`. -/
theorem sin_giros_tras_acabar_ejemplo : ∃ s s' : Completo configEjemplo,
    correr (SistemaCompleto.paso configuracion cpusEjemplo) corridaEjemplo inicioEjemplo = some s ∧
      acabada 0 (s.vidas 0).giros = true ∧
      correr (SistemaCompleto.paso configuracion cpusEjemplo)
        (agenda configuracion cpusEjemplo tomaExit s) s = some s' ∧
      (s'.vidas 0).giros = (s.vidas 0).giros ∧
      ∀ fd, (s'.nucleos fd).rafaga.map Prod.fst ≠ some 0 := by
  have hrun : ((correr (SistemaCompleto.paso configuracion cpusEjemplo) corridaEjemplo
      inicioEjemplo).any fun s => decide (acabada 0 (s.vidas 0).giros = true ∧
        Cumple (SistemaCompleto.paso configuracion cpusEjemplo) (Previsto configuracion)
          (agenda configuracion cpusEjemplo tomaExit s) s) &&
        (correr (SistemaCompleto.paso configuracion cpusEjemplo)
          (agenda configuracion cpusEjemplo tomaExit s) s).any fun s' =>
            decide (s'.conjunto.kernel.comun.indefinido = false)) = true := by
    decide +kernel
  obtain ⟨s, hs, hobs⟩ := (Option.any_eq_true _ _).mp hrun
  obtain ⟨hfin, hcola⟩ := Bool.and_eq_true_iff.mp hobs
  obtain ⟨hacaba, hC'⟩ := of_decide_eq_true hfin
  obtain ⟨s', hs', hdef⟩ := (Option.any_eq_true _ _).mp hcola
  refine ⟨s, s', hs, hacaba, hs', ?_⟩
  exact sin_giros_tras_acabar algoritmos_ejemplo previsto_ejemplo sin_fallas_corrida hs hacaba hC'
    (sin_fallas_agenda (sin_fallas_conMemoria _)) hs' (of_decide_eq_true hdef)

end Corridas

end SistemaTerminacion

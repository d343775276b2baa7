import Tpssoo.KernelDispositivos

/-!
# One request at a time on each connection

Every instance of a group has its thread of `hilo_escucha_io`, and every such thread its
instance. What was sent to a device and has not come back is the request that its instance is
marked with, so the PID that an end of IO carries is the one that the kernel has there.
-/
namespace KernelFlujos

open EnterosC Protocolo KernelEstado KernelFunciones KernelHilos KernelVistas KernelPcbs
open KernelSaludos KernelDispositivos Entrelazado

/-- The threads of the connections of the devices. -/
def deIo : Hilo → Bool
  | .ioRegistra _ _ | .ioResponde _ _ | .escuchaIo _ _ _ => true
  | _ => false

/-- The connection of which a thread is the one that reads. -/
def conexionDe : Hilo → Option ℕ
  | .ioRegistra fd _ | .escuchaIo fd _ _ => some fd
  | _ => none

/-- The connection to which a thread still has to send `HANDSHAKE_OK`. -/
def saludaA : Hilo → Option ℕ
  | .ioRegistra fd _ | .ioResponde fd _ => some fd
  | _ => none

def esSaludo (m : Mensaje) : Bool := decide (m = .handshakeOk)

/-- The devices, under their threads. -/
structure Flujos (v : VistaIo) (hs : List Hilo) : Prop where
  grupos : Registrados v.dispositivos v.grupos
  hilos : Unico conexionDe hs
  abiertas : ∀ h ∈ hs, ∀ fd, conexionDe h = some fd ∨ saludaA h = some fd → fd < v.conexiones
  cerradas : ∀ fd, v.conexiones ≤ fd → v.enviados fd = []
  saludos : ∀ fd, (v.enviados fd).countP esSaludo + (hs.filterMap saludaA).count fd ≤ 1
  pedidos : ∀ fd, (v.enviados fd).length = (solicitudes (v.enviados fd)).length +
      (v.enviados fd).countP esSaludo
  porRegistrar : ∀ fd nombre, .ioRegistra fd nombre ∈ hs → solicitudes (v.enviados fd) = []
  instancias : ∀ g ∈ v.dispositivos, ∀ fd ∈ fds g, ∃ t, .escuchaIo fd g.nombreDispositivo t ∈ hs
  escuchas : ∀ fd nombre t, .escuchaIo fd nombre t ∈ hs → ∃ g ∈ v.dispositivos,
    g.nombreDispositivo = nombre ∧ fd ∈ fds g ∧ Cursa (v.enviados fd) t fd g

section Lecturas

variable {v : VistaIo} {hs : List Hilo} {g : GrupoIo} {x : Instancia} {fd t : ℕ}
  {nombre nombre' : List Byte} {pid : ℤ}

/-- A connection that a thread is about to register is of no instance. -/
theorem Flujos.nueva (h : Flujos v hs) (hreg : Hilo.ioRegistra fd nombre ∈ hs) :
    fd ∉ v.dispositivos.flatMap fds := by
  intro hmem
  obtain ⟨g, hg, hfd⟩ := List.mem_flatMap.mp hmem
  obtain ⟨t, ht⟩ := h.instancias g hg fd hfd
  obtain ⟨l, r, rfl⟩ := List.append_of_mem hreg
  refine h.hilos.solo (h := Hilo.ioRegistra fd nombre) rfl ?_
  refine List.mem_filterMap.mpr ⟨.escuchaIo fd g.nombreDispositivo t, ?_, rfl⟩
  simpa using ht

/-- The group of a thread that listens to a device. -/
theorem Flujos.grupoDe (h : Flujos v hs) (hesc : Hilo.escuchaIo fd nombre t ∈ hs)
    (hg : g ∈ v.dispositivos) (hfd : fd ∈ fds g) :
    g.nombreDispositivo = nombre ∧ Cursa (v.enviados fd) t fd g := by
  obtain ⟨g', hg', hnombre, hfd', hcursa⟩ := h.escuchas fd nombre t hesc
  cases h.grupos.grupo hg hg' hfd hfd'
  exact ⟨hnombre, hcursa⟩

end Lecturas

section Cambios

variable {v : VistaIo} {hs l r : List Hilo} {gs gs' : List GrupoIo} {g g₁ : GrupoIo} {fd t : ℕ}
  {nombre : List Byte}

theorem solicitudes_pedidos (nombre : List Byte) (sols : List Solicitud) :
    solicitudes (sols.map (.io nombre)) = sols ∧ (sols.map (.io nombre)).countP esSaludo = 0 := by
  constructor
  · rw [solicitudes, List.filterMap_map]
    exact List.filterMap_some
  · rw [List.countP_eq_zero]
    intro m hm
    obtain ⟨sol, -, rfl⟩ := List.mem_map.mp hm
    exact of_decide_eq_false rfl

/-- `despachar_io_si_es_posible` on a group. -/
theorem Flujos.despacha {e : Canal → List Mensaje} (h : Flujos v hs)
    (hv : v.dispositivos = gs ++ g :: gs') (he : ∀ fd, e (.io fd) = v.enviados fd) :
    Flujos
      { v with
        dispositivos := gs ++ (despacharIoSiEsPosible g).1 :: gs'
        enviados := fun fd => (despacharIoSiEsPosible g).2.foldl
          (enviarPedido (despacharIoSiEsPosible g).1.nombreDispositivo) e (.io fd) } hs := by
  have hg : g ∈ v.dispositivos := hv ▸ List.mem_append_right _ List.mem_cons_self
  obtain ⟨hfds, henv⟩ := fds_despacharCola (g := g) g.colaEsperaCompartida
  obtain ⟨hid, hnombre⟩ := datos_despacharCola (g := g) g.colaEsperaCompartida
  have hajeno : ∀ fd, fd ∉ fds g → (despacharIoSiEsPosible g).2.foldl
      (enviarPedido (despacharIoSiEsPosible g).1.nombreDispositivo) e (.io fd) = v.enviados fd := by
    intro fd hfd
    rw [enviarPedidos_ajenos, he]
    intro x hx heq
    exact hfd (heq ▸ henv x hx)
  have hcrece : ∀ fd, ∃ sols : List Solicitud, (despacharIoSiEsPosible g).2.foldl
      (enviarPedido (despacharIoSiEsPosible g).1.nombreDispositivo) e (.io fd) =
        v.enviados fd ++ sols.map (.io (despacharIoSiEsPosible g).1.nombreDispositivo) := by
    intro fd
    obtain ⟨sols, hsols⟩ := enviarPedidos_io (despacharIoSiEsPosible g).1.nombreDispositivo
      (despacharIoSiEsPosible g).2 e fd
    exact ⟨sols, he fd ▸ hsols⟩
  have hmem : ∀ {x}, x ∈ gs ++ (despacharIoSiEsPosible g).1 :: gs' →
      ∃ y ∈ v.dispositivos, y.nombreDispositivo = x.nombreDispositivo ∧ fds y = fds x := by
    intro x hx
    rw [hv]
    rcases List.mem_append.mp hx with hx | hx
    · exact ⟨x, List.mem_append_left _ hx, rfl, rfl⟩
    rcases List.mem_cons.mp hx with rfl | hx
    · exact ⟨g, List.mem_append_right _ List.mem_cons_self, hnombre.symm, hfds.symm⟩
    · exact ⟨x, List.mem_append_right _ (List.mem_cons_of_mem _ hx), rfl, rfl⟩
  constructor
  · exact (hv ▸ h.grupos).cambia hid hnombre (hfds ▸ List.Sublist.refl _)
  · exact h.hilos
  · exact h.abiertas
  · intro fd hfd
    refine (hajeno fd fun hmem => ?_).trans (h.cerradas fd hfd)
    obtain ⟨t, ht⟩ := h.instancias g hg fd hmem
    exact absurd (h.abiertas _ ht fd (Or.inl rfl)) (Nat.not_lt.mpr hfd)
  · intro fd
    obtain ⟨sols, hsols⟩ := hcrece fd
    dsimp only
    rw [hsols, List.countP_append, (solicitudes_pedidos _ _).2]
    exact h.saludos fd
  · intro fd
    obtain ⟨sols, hsols⟩ := hcrece fd
    obtain ⟨hsol, hcero⟩ := solicitudes_pedidos (despacharIoSiEsPosible g).1.nombreDispositivo sols
    have hantes := h.pedidos fd
    dsimp only
    rw [hsols, solicitudes_append, hsol, List.countP_append, hcero, List.length_append,
      List.length_append, List.length_map]
    omega
  · intro fd nombre hreg
    refine (congrArg solicitudes (hajeno fd fun hmem => ?_)).trans (h.porRegistrar fd nombre hreg)
    exact h.nueva hreg (List.mem_flatMap.mpr ⟨g, hg, hmem⟩)
  · intro x hx fd hfd
    obtain ⟨y, hy, hnom, hcon⟩ := hmem hx
    rw [← hnom]
    exact h.instancias y hy fd (hcon ▸ hfd)
  · intro fd nombre t hesc
    obtain ⟨y, hy, hnom, hfd, hcursa⟩ := h.escuchas fd nombre t hesc
    by_cases hen : fd ∈ fds g
    · have heq := h.grupos.grupo hy hg hfd hen
      subst heq
      refine ⟨_, List.mem_append_right _ List.mem_cons_self, hnombre.trans hnom, hfds ▸ hfd, ?_⟩
      exact cursa_despacharCola y.colaEsperaCompartida (h.grupos.nodup hy) (he fd ▸ hcursa)
    · refine ⟨y, ?_, hnom, hfd, ?_⟩
      · rw [hv] at hy
        simp only [List.mem_append, List.mem_cons] at hy ⊢
        rcases hy with hy | rfl | hy
        · exact Or.inl hy
        · exact absurd hfd hen
        · exact Or.inr (Or.inr hy)
      · dsimp only
        rwa [hajeno fd hen]

/-- A connection of another kind. -/
theorem Flujos.abre (h : Flujos v hs) : Flujos { v with conexiones := v.conexiones + 1 } hs := by
  constructor
  · exact h.grupos
  · exact h.hilos
  · exact fun d hd fd hfd => Nat.lt_succ_of_lt (h.abiertas d hd fd hfd)
  · exact fun fd hfd => h.cerradas fd ((Nat.le_succ _).trans hfd)
  · exact h.saludos
  · exact h.pedidos
  · exact h.porRegistrar
  · exact h.instancias
  · exact h.escuchas

theorem mem_medio {x o : Hilo} : x ∈ l ++ o :: r ↔ x = o ∨ x ∈ l ++ r := by
  simp only [List.mem_append, List.mem_cons]
  tauto

theorem cuenta_ajena {o : Hilo} (ho : saludaA o = none) :
    (l ++ o :: r).filterMap saludaA = (l ++ r).filterMap saludaA := by
  rw [List.filterMap_append, List.filterMap_append, List.filterMap_cons_none ho]

theorem cuenta_medio {o : Hilo} {fd : ℕ} (ho : saludaA o = some fd) (fd' : ℕ) :
    ((l ++ o :: r).filterMap saludaA).count fd' =
      ((l ++ r).filterMap saludaA).count fd' + if fd = fd' then 1 else 0 := by
  rw [List.filterMap_append, List.filterMap_append, List.filterMap_cons_some ho, List.count_append,
    List.count_append, List.count_cons, Nat.add_assoc]
  simp

theorem unico_medio {o : Hilo} {fd : ℕ} (ho : conexionDe o = some fd) :
    Unico conexionDe (l ++ o :: r) ↔ fd ∉ (l ++ r).filterMap conexionDe ∧
      Unico conexionDe (l ++ r) := by
  rw [Unico, Unico, List.filterMap_append, List.filterMap_cons_some ho, List.nodup_middle,
    List.nodup_cons, ← List.filterMap_append]

/-- Other threads do not count. -/
theorem Flujos.ajeno {hs' : List Hilo} (h : Flujos v hs) (hhilos : hs'.filter deIo =
    hs.filter deIo) :
    Flujos v hs' := by
  have hmem : ∀ d, deIo d = true → (d ∈ hs' ↔ d ∈ hs) := by
    intro d hd
    have hiff : d ∈ hs'.filter deIo ↔ d ∈ hs.filter deIo := by rw [hhilos]
    rw [List.mem_filter, List.mem_filter] at hiff
    exact ⟨fun hm => (hiff.mp ⟨hm, hd⟩).1, fun hm => (hiff.mpr ⟨hm, hd⟩).1⟩
  have hmap : ∀ f : Hilo → Option ℕ, (∀ d, deIo d = false → f d = none) →
      hs'.filterMap f = hs.filterMap f := by
    intro f hf
    have hfiltra : ∀ xs : List Hilo, (xs.filter deIo).filterMap f = xs.filterMap f := by
      intro xs
      induction xs with
      | nil => rfl
      | cons d xs ih =>
        cases hd : deIo d with
        | true => rw [List.filter_cons_of_pos hd, List.filterMap_cons, List.filterMap_cons, ih]
        | false =>
          rw [List.filter_cons_of_neg (by simp [hd]), List.filterMap_cons_none (hf d hd), ih]
    rw [← hfiltra, hhilos, hfiltra]
  have hnada : ∀ d, deIo d = false → conexionDe d = none ∧ saludaA d = none := by
    intro d hd
    cases d <;> first | exact ⟨rfl, rfl⟩ | cases hd
  constructor
  · exact h.grupos
  · rw [Unico, hmap conexionDe fun d hd => (hnada d hd).1]
    exact h.hilos
  · intro d hd fd hfd
    cases hio : deIo d with
    | true => exact h.abiertas d ((hmem d hio).mp hd) fd hfd
    | false =>
      rw [(hnada d hio).1, (hnada d hio).2] at hfd
      rcases hfd with hfd | hfd <;> cases hfd
  · exact h.cerradas
  · intro fd
    rw [hmap saludaA fun d hd => (hnada d hd).2]
    exact h.saludos fd
  · exact h.pedidos
  · exact fun fd nom hreg => h.porRegistrar fd nom ((hmem _ rfl).mp hreg)
  · intro g hg fd hfd
    obtain ⟨t, ht⟩ := h.instancias g hg fd hfd
    exact ⟨t, (hmem _ rfl).mpr ht⟩
  · exact fun fd nom t hesc => h.escuchas fd nom t ((hmem _ rfl).mp hesc)

/-- A device connects. -/
theorem Flujos.conecta (nombre : List Byte) (h : Flujos v (l ++ r)) :
    Flujos { v with conexiones := v.conexiones + 1 }
      (l ++ .ioRegistra v.conexiones nombre :: r) := by
  have hnada : ∀ d ∈ l ++ r, ¬ (conexionDe d = some v.conexiones ∨ saludaA d = some v.conexiones) :=
    fun d hd hfd => lt_irrefl _ (h.abiertas d hd _ hfd)
  constructor
  · exact h.grupos
  · refine (unico_medio rfl).mpr ⟨fun hmem => ?_, h.hilos⟩
    obtain ⟨d, hd, hfd⟩ := List.mem_filterMap.mp hmem
    exact hnada d hd (Or.inl hfd)
  · intro d hd fd hfd
    rcases mem_medio.mp hd with rfl | hd
    · have heq : v.conexiones = fd := by
        rcases hfd with hfd | hfd <;> exact Option.some.inj hfd
      exact heq ▸ Nat.lt_succ_self _
    · exact Nat.lt_succ_of_lt (h.abiertas d hd fd hfd)
  · exact fun fd hfd => h.cerradas fd ((Nat.le_succ _).trans hfd)
  · intro fd
    rw [cuenta_medio rfl]
    by_cases heq : v.conexiones = fd
    · subst heq
      have hcero : ((l ++ r).filterMap saludaA).count v.conexiones = 0 := by
        rw [List.count_eq_zero]
        intro hmem
        obtain ⟨d, hd, hfd⟩ := List.mem_filterMap.mp hmem
        exact hnada d hd (Or.inr hfd)
      rw [hcero, if_pos rfl, h.cerradas _ (Nat.le_refl _), List.countP_nil]
    · rw [if_neg heq]
      exact h.saludos fd
  · exact h.pedidos
  · intro fd nom hreg
    rcases mem_medio.mp hreg with heq | hreg
    · cases heq
      exact congrArg solicitudes (h.cerradas _ le_rfl)
    · exact h.porRegistrar fd nom hreg
  · intro g hg fd hfd
    obtain ⟨t, ht⟩ := h.instancias g hg fd hfd
    exact ⟨t, mem_medio.mpr (Or.inr ht)⟩
  · intro fd nom t hesc
    rcases mem_medio.mp hesc with heq | hesc
    · cases heq
    · exact h.escuchas fd nom t hesc

/-- `HANDSHAKE_OK` is sent. -/
theorem Flujos.responde {grupo : ℕ} (h : Flujos v (l ++ .ioResponde fd grupo :: r)) :
    Flujos { v with enviados := Function.update v.enviados fd (v.enviados fd ++ [.handshakeOk]) }
      (l ++ r) := by
  have hsol : ∀ fd', solicitudes (Function.update v.enviados fd
      (v.enviados fd ++ [.handshakeOk]) fd') =
      solicitudes (v.enviados fd') := by
    intro fd'
    by_cases heq : fd' = fd
    · subst heq
      rw [Function.update_self, solicitudes_append]
      exact List.append_nil _
    · rw [Function.update_of_ne heq]
  constructor
  · exact h.grupos
  · have hsale : Unico conexionDe (l ++ ([] ++ r)) := h.hilos.mueve (List.nil_sublist _)
    exact hsale
  · exact fun d hd => h.abiertas d (mem_medio.mpr (Or.inr hd))
  · intro fd' hfd
    have hlt := h.abiertas _ (mem_medio.mpr (Or.inl rfl)) fd (Or.inr rfl)
    have hne : fd' ≠ fd := (hlt.trans_le hfd).ne'
    exact (Function.update_of_ne hne _ _).trans (h.cerradas fd' hfd)
  · intro fd'
    have hantes := h.saludos fd'
    rw [cuenta_medio rfl] at hantes
    dsimp only
    by_cases heq : fd' = fd
    · subst heq
      rw [if_pos rfl] at hantes
      rw [Function.update_self, List.countP_append]
      have huno : List.countP esSaludo [Mensaje.handshakeOk] = 1 := rfl
      omega
    · rw [if_neg fun heq' => heq heq'.symm] at hantes
      rwa [Function.update_of_ne heq]
  · intro fd'
    have hantes := h.pedidos fd'
    dsimp only
    rw [hsol]
    by_cases heq : fd' = fd
    · subst heq
      rw [Function.update_self, List.length_append, List.countP_append]
      have huno : List.countP esSaludo [Mensaje.handshakeOk] = [Mensaje.handshakeOk].length := rfl
      omega
    · rw [Function.update_of_ne heq]
      exact hantes
  · intro fd' nom hreg
    exact (hsol fd').trans (h.porRegistrar fd' nom (mem_medio.mpr (Or.inr hreg)))
  · intro g hg fd' hfd
    obtain ⟨t, ht⟩ := h.instancias g hg fd' hfd
    refine ⟨t, (mem_medio.mp ht).resolve_left ?_⟩
    exact nofun
  · intro fd' nom t hesc
    obtain ⟨g, hg, hnom, hfd, hcursa⟩ := h.escuchas fd' nom t (mem_medio.mpr (Or.inr hesc))
    refine ⟨g, hg, hnom, hfd, fun x hx hxfd => ?_⟩
    obtain ⟨henv, hresto⟩ := hcursa x hx hxfd
    dsimp only
    exact ⟨(hsol fd').symm ▸ henv, (hsol fd').symm ▸ hresto⟩

/-- The connection stops being read: its instance has left its group. -/
theorem Flujos.desconecta (h : Flujos v (l ++ .escuchaIo fd nombre t :: r))
    (hgrupos : Registrados gs v.grupos)
    (hde : ∀ y ∈ gs, ∃ x ∈ v.dispositivos, x.nombreDispositivo = y.nombreDispositivo ∧
      ∀ fd' ∈ fds y, fd' ∈ fds x ∧ fd' ≠ fd)
    (ha : ∀ x ∈ v.dispositivos, ∀ fd' ∈ fds x, fd' ≠ fd → ∃ y ∈ gs,
      y.nombreDispositivo = x.nombreDispositivo ∧ fd' ∈ fds y ∧
        ∀ z ∈ y.instancias, z ∈ x.instancias) :
    Flujos { v with dispositivos := gs } (l ++ r) := by
  constructor
  · exact hgrupos
  · have hsale : Unico conexionDe (l ++ ([] ++ r)) := h.hilos.mueve (List.nil_sublist _)
    exact hsale
  · exact fun d hd => h.abiertas d (mem_medio.mpr (Or.inr hd))
  · exact h.cerradas
  · intro fd'
    have hantes := h.saludos fd'
    rwa [cuenta_ajena rfl] at hantes
  · exact h.pedidos
  · exact fun fd' nom hreg => h.porRegistrar fd' nom (mem_medio.mpr (Or.inr hreg))
  · intro y hy fd' hfd
    obtain ⟨x, hx, hnom, hfds⟩ := hde y hy
    obtain ⟨hfd', hne⟩ := hfds fd' hfd
    obtain ⟨t', ht'⟩ := h.instancias x hx fd' hfd'
    rcases mem_medio.mp ht' with heq | ht'
    · cases heq
      exact absurd rfl hne
    · exact ⟨t', hnom ▸ ht'⟩
  · intro fd' nom t' hesc
    have hne : fd' ≠ fd := by
      rintro rfl
      refine ((unico_medio (l := l) (r := r) rfl).mp h.hilos).1 ?_
      exact List.mem_filterMap.mpr ⟨_, hesc, rfl⟩
    obtain ⟨x, hx, hnom, hfd, hcursa⟩ := h.escuchas fd' nom t' (mem_medio.mpr (Or.inr hesc))
    obtain ⟨y, hy, hnom', hfd', hsub⟩ := ha x hx fd' hfd hne
    exact ⟨y, hy, hnom'.trans hnom, hfd', fun z hz => hcursa z (hsub z hz)⟩

/-- The request in flight is answered. -/
theorem Flujos.termina (h : Flujos v (l ++ .escuchaIo fd nombre t :: r))
    (hv : v.dispositivos = gs ++ g :: gs') (hfd : fd ∈ fds g)
    (hocupado : ∀ x ∈ g.instancias, x.socketFd = fd → x.ocupado = true) :
    Flujos { v with dispositivos := gs ++ liberarInstancia g fd :: gs' }
      (l ++ .escuchaIo fd nombre (t + 1) :: r) := by
  have hg : g ∈ v.dispositivos := hv ▸ List.mem_append_right _ List.mem_cons_self
  have hfds : fds (liberarInstancia g fd) = fds g := fds_liberar fd
  obtain ⟨hnombre, hcursa⟩ := h.grupoDe (mem_medio.mpr (Or.inl rfl)) hg hfd
  constructor
  · exact (hv ▸ h.grupos).cambia rfl rfl (hfds ▸ List.Sublist.refl _)
  · have hunico := (unico_medio (l := l) (r := r) rfl).mp h.hilos
    exact (unico_medio rfl).mpr hunico
  · intro d hd fd' hfd'
    rcases mem_medio.mp hd with rfl | hd
    · exact h.abiertas _ (mem_medio.mpr (Or.inl rfl)) fd' hfd'
    · exact h.abiertas d (mem_medio.mpr (Or.inr hd)) fd' hfd'
  · exact h.cerradas
  · intro fd'
    have hantes := h.saludos fd'
    rw [cuenta_ajena rfl] at hantes ⊢
    exact hantes
  · exact h.pedidos
  · intro fd' nom hreg
    rcases mem_medio.mp hreg with heq | hreg
    · cases heq
    · exact h.porRegistrar fd' nom (mem_medio.mpr (Or.inr hreg))
  · have hsigue : ∀ fd' nom, (∃ t', .escuchaIo fd' nom t' ∈ l ++ .escuchaIo fd nombre t :: r) →
        ∃ t', .escuchaIo fd' nom t' ∈ l ++ .escuchaIo fd nombre (t + 1) :: r := by
      rintro fd' nom ⟨t', ht'⟩
      rcases mem_medio.mp ht' with heq | ht'
      · cases heq
        exact ⟨t + 1, mem_medio.mpr (Or.inl rfl)⟩
      · exact ⟨t', mem_medio.mpr (Or.inr ht')⟩
    intro x hx fd' hfd'
    have hx' : x ∈ v.dispositivos ∨ x = liberarInstancia g fd := by
      rw [hv]
      simp only [List.mem_append, List.mem_cons] at hx ⊢
      tauto
    rcases hx' with hx | rfl
    · exact hsigue fd' _ (h.instancias x hx fd' hfd')
    · exact hsigue fd' _ (h.instancias g hg fd' (hfds ▸ hfd'))
  · intro fd' nom t' hesc
    rcases mem_medio.mp hesc with heq | hotra
    · cases heq
      refine ⟨_, List.mem_append_right _ List.mem_cons_self, hnombre, hfds ▸ hfd, ?_⟩
      intro x hx hxfd
      obtain ⟨y, hy, rfl⟩ := List.mem_map.mp hx
      have hyfd : y.socketFd = fd := by
        rw [← hxfd]
        split <;> rfl
      rw [if_pos hyfd]
      exact (hcursa y hy hyfd).termina (hocupado y hy hyfd)
    · obtain ⟨y, hy, hnom, hen, hcur⟩ := h.escuchas fd' nom t' (mem_medio.mpr (Or.inr hotra))
      have hne : fd' ≠ fd := by
        rintro rfl
        refine ((unico_medio (l := l) (r := r) rfl).mp h.hilos).1 ?_
        exact List.mem_filterMap.mpr ⟨.escuchaIo _ nom t', hotra, rfl⟩
      rw [hv] at hy
      have hotro : y ∈ gs ++ liberarInstancia g fd :: gs' ∨ y = g := by
        simp only [List.mem_append, List.mem_cons] at hy ⊢
        tauto
      rcases hotro with hy | rfl
      · exact ⟨y, hy, hnom, hen, hcur⟩
      · refine ⟨_, List.mem_append_right _ List.mem_cons_self, hnom, hfds ▸ hen, ?_⟩
        intro x hx hxfd
        obtain ⟨z, hz, rfl⟩ := List.mem_map.mp hx
        split at hxfd
        · next hzfd => exact absurd (hxfd.symm.trans hzfd) hne
        · next hzfd =>
            rw [if_neg hzfd]
            exact hcur z hz hxfd

/-- A connection becomes that of a new instance. -/
theorem Flujos.registra {n grupo : ℕ} (h : Flujos v (l ++ .ioRegistra fd nombre :: r))
    (hgrupos : Registrados gs n)
    (hde : ∀ y ∈ gs, ∀ fd' ∈ fds y, fd' = fd ∧ y.nombreDispositivo = nombre ∨
      ∃ x ∈ v.dispositivos, x.nombreDispositivo = y.nombreDispositivo ∧ fd' ∈ fds x)
    (ha : ∀ x ∈ v.dispositivos, ∃ y ∈ gs, y.nombreDispositivo = x.nombreDispositivo ∧
      fds x ⊆ fds y ∧ ∀ z ∈ y.instancias, z.socketFd ≠ fd → z ∈ x.instancias)
    (hnueva : ∃ y ∈ gs, y.nombreDispositivo = nombre ∧ fd ∈ fds y ∧
      ∀ z ∈ y.instancias, z.socketFd = fd → z = ⟨fd, false, 0⟩) :
    Flujos { v with dispositivos := gs, grupos := n }
      (l ++ .ioResponde fd grupo :: .escuchaIo fd nombre 0 :: r) := by
  have hmem : ∀ {d}, d ∈ l ++ .ioResponde fd grupo :: .escuchaIo fd nombre 0 :: r ↔
      d = .ioResponde fd grupo ∨ d = .escuchaIo fd nombre 0 ∨ d ∈ l ++ r := by
    intro d
    simp only [List.mem_append, List.mem_cons]
    tauto
  have hunico := (unico_medio (l := l) (r := r) rfl).mp h.hilos
  constructor
  · exact hgrupos
  · have hentra : Unico conexionDe (l ++ ([.ioResponde fd grupo, .escuchaIo fd nombre 0] ++ r)) :=
      h.hilos.mueve (List.Sublist.refl [fd])
    exact hentra
  · have habierta := h.abiertas _ (mem_medio.mpr (Or.inl rfl)) fd (Or.inl rfl)
    intro d hd fd' hfd
    rcases hmem.mp hd with rfl | rfl | hd
    · rcases hfd with hfd | hfd
      · cases hfd
      · exact Option.some.inj hfd ▸ habierta
    · rcases hfd with hfd | hfd
      · exact Option.some.inj hfd ▸ habierta
      · cases hfd
    · exact h.abiertas d (mem_medio.mpr (Or.inr hd)) fd' hfd
  · exact h.cerradas
  · intro fd'
    have hantes := h.saludos fd'
    have hsigue : (l ++ .ioResponde fd grupo :: .escuchaIo fd nombre 0 :: r).filterMap saludaA =
        (l ++ .ioRegistra fd nombre :: r).filterMap saludaA := by
      rw [List.filterMap_append, List.filterMap_append]
      rfl
    rwa [hsigue]
  · exact h.pedidos
  · intro fd' nom hreg
    rcases hmem.mp hreg with heq | heq | hreg
    · cases heq
    · cases heq
    · exact h.porRegistrar fd' nom (mem_medio.mpr (Or.inr hreg))
  · intro y hy fd' hfd
    rcases hde y hy fd' hfd with ⟨rfl, rfl⟩ | ⟨x, hx, hnom, hfd'⟩
    · exact ⟨0, hmem.mpr (Or.inr (Or.inl rfl))⟩
    · obtain ⟨t, ht⟩ := h.instancias x hx fd' hfd'
      refine ⟨t, hmem.mpr (Or.inr (Or.inr ?_))⟩
      rw [← hnom]
      exact (mem_medio.mp ht).resolve_left nofun
  · intro fd' nom t' hesc
    rcases hmem.mp hesc with heq | heq | hotra
    · cases heq
    · cases heq
      obtain ⟨y, hy, hnom, hfd, hz⟩ := hnueva
      refine ⟨y, hy, hnom, hfd, fun z hzm hzfd => ?_⟩
      rw [hz z hzm hzfd]
      have hvacia := h.porRegistrar fd nombre (mem_medio.mpr (Or.inl rfl))
      exact ⟨Nat.zero_le _, (congrArg (fun sols => (sols.drop 0).map Solicitud.pid) hvacia :)⟩
    · obtain ⟨x, hx, hnom, hfd, hcursa⟩ := h.escuchas fd' nom t' (mem_medio.mpr (Or.inr hotra))
      obtain ⟨y, hy, hnom', hsub, hz⟩ := ha x hx
      refine ⟨y, hy, hnom'.trans hnom, hsub hfd, fun z hzm hzfd => hcursa z (hz z hzm ?_) hzfd⟩
      rintro rfl
      refine hunico.1 (List.mem_filterMap.mpr ⟨.escuchaIo fd' nom t', hotra, ?_⟩)
      rw [hzfd]
      rfl

/-- Only the queue of a group changes. -/
theorem Flujos.cola (h : Flujos v hs) (hv : v.dispositivos = gs ++ g :: gs') (hid : g₁.id = g.id)
    (hnombre : g₁.nombreDispositivo = g.nombreDispositivo)
    (hinst : g₁.instancias = g.instancias) :
    Flujos { v with dispositivos := gs ++ g₁ :: gs' } hs := by
  have hfds : fds g₁ = fds g := congrArg (List.map Instancia.socketFd) hinst
  have hg : g ∈ v.dispositivos := hv ▸ List.mem_append_right _ List.mem_cons_self
  constructor
  · exact (hv ▸ h.grupos).cambia hid hnombre (hfds ▸ List.Sublist.refl _)
  · exact h.hilos
  · exact h.abiertas
  · exact h.cerradas
  · exact h.saludos
  · exact h.pedidos
  · exact h.porRegistrar
  · intro x hx fd hfd
    have hx' : x ∈ v.dispositivos ∨ x = g₁ := by
      rw [hv]
      simp only [List.mem_append, List.mem_cons] at hx ⊢
      tauto
    rcases hx' with hx | rfl
    · exact h.instancias x hx fd hfd
    · rw [hnombre]
      exact h.instancias g hg fd (hfds ▸ hfd)
  · intro fd nom t hesc
    obtain ⟨y, hy, hnom, hfd, hcursa⟩ := h.escuchas fd nom t hesc
    rw [hv] at hy
    have hy' : y ∈ gs ++ g₁ :: gs' ∨ y = g := by
      simp only [List.mem_append, List.mem_cons] at hy ⊢
      tauto
    rcases hy' with hy | rfl
    · exact ⟨y, hy, hnom, hfd, hcursa⟩
    · refine ⟨g₁, List.mem_append_right _ List.mem_cons_self, hnombre.trans hnom, hfds ▸ hfd, ?_⟩
      exact fun x hx => hcursa x (hinst ▸ hx)

end Cambios

section Acciones

variable {c : ConfigKernel} {k : Kernel} {hs l r : List Hilo} {gs gs' : List GrupoIo}
  {g g₁ : GrupoIo}
  {fd t : ℕ} {nombre : List Byte} {a : Accion} {pid : ℤ}

/-- The dispatcher runs on a group, which goes back to the dictionary. -/
theorem flujos_guardar (h : Flujos { vistaIo k with dispositivos := gs ++ g₁ :: gs' } hs)
    (hk : k.dispositivosIo = gs ++ g :: gs') (hids : (k.dispositivosIo.map GrupoIo.id).Nodup)
    (hid : g₁.id = g.id) : Flujos (vistaIo (guardarGrupo k (despacharIoSiEsPosible g₁))) hs ∧
      (guardarGrupo k (despacharIoSiEsPosible g₁)).dispositivosIo =
        gs ++ (despacharIoSiEsPosible g₁).1 :: gs' := by
  have hds : (guardarGrupo k (despacharIoSiEsPosible g₁)).dispositivosIo =
      gs ++ (despacharIoSiEsPosible g₁).1 :: gs' := by
    rw [guardarGrupo, hk]
    rw [hk] at hids
    exact reemplaza hids ((datos_despacharCola _).1.trans hid)
  refine ⟨?_, hds⟩
  rw [vistaIo, hds]
  exact h.despacha rfl fun _ => rfl

theorem solicitudes_todas {ms : List Mensaje} {sol : Solicitud}
    (hlargo : ms.length = (solicitudes ms).length) (hm : ms[t]? = some (.io nombre sol)) :
    (solicitudes ms)[t]? = some sol := by
  induction ms generalizing t with
  | nil => cases hm
  | cons m ms ih =>
    have hcola : (solicitudes ms).length ≤ ms.length := List.length_filterMap_le _ _
    cases m with
    | io n s =>
      have hcons : solicitudes (.io n s :: ms) = s :: solicitudes ms := rfl
      rw [hcons] at hlargo ⊢
      cases t with
      | zero =>
        cases hm
        rfl
      | succ t => exact ih (Nat.succ.inj hlargo) hm
    | _ => exact absurd hlargo (Nat.ne_of_gt (Nat.lt_succ_of_le hcola))

/-- The PID that an end of IO carries is the one that the kernel has at the instance. -/
theorem pedido_en_curso (h : Flujos (vistaIo k) hs) (hesc : Hilo.escuchaIo fd nombre t ∈ hs)
    (hpedido : pedidoIo k fd t = some pid) : ∃ g ∈ k.dispositivosIo, g.nombreDispositivo = nombre ∧
      fd ∈ fds g ∧ ∀ x ∈ g.instancias, x.socketFd = fd → pedido x = [pid] := by
  obtain ⟨g, hg, hnombre, hfd, hcursa⟩ := h.escuchas fd nombre t hesc
  refine ⟨g, hg, hnombre, hfd, fun x hx hxfd => ?_⟩
  rw [pedidoIo] at hpedido
  split at hpedido
  · next resto hms =>
      split at hpedido
      · next n sol hsol =>
          cases hpedido
          have hms' : (vistaIo k).enviados fd = .handshakeOk :: resto := hms
          have huno := h.saludos fd
          have hlargo := h.pedidos fd
          have hresto := (hcursa x hx hxfd).resto
          rw [hms'] at huno hlargo hresto
          have hcuenta : List.countP esSaludo (.handshakeOk :: resto) = resto.countP esSaludo + 1 :=
            List.countP_cons_of_pos rfl
          have hsols : solicitudes (.handshakeOk :: resto) = solicitudes resto := rfl
          rw [hcuenta] at huno hlargo
          rw [hsols] at hlargo hresto
          rw [List.length_cons] at hlargo
          have hen := solicitudes_todas (by omega) hsol
          obtain ⟨hlt, hget⟩ := List.getElem?_eq_some_iff.mp hen
          rw [List.drop_eq_getElem_cons hlt, hget, List.map_cons, pedido] at hresto
          rw [pedido]
          split at hresto
          · next hocupado => rw [if_pos hocupado, (List.cons.inj hresto).1]
          · cases hresto
      · cases hpedido
  · cases hpedido

/-- The instance of a connection, among those of its group. -/
theorem parte_instancia (hnodup : (fds g).Nodup) {x : Instancia} (hx : x ∈ g.instancias) :
    ∃ xs ys, g.instancias = xs ++ x :: ys ∧ ∀ y ∈ xs ++ ys, y.socketFd ≠ x.socketFd := by
  obtain ⟨xs, ys, hinst⟩ := List.append_of_mem hx
  refine ⟨xs, ys, hinst, fun y hy heq => ?_⟩
  rw [fds, hinst, List.map_append, List.map_cons, List.nodup_middle, ← List.map_append,
    List.nodup_cons] at hnodup
  exact hnodup.1 (List.mem_map.mpr ⟨y, hy, heq⟩)

/-- `bloquear_proceso` leaves its request in the queue, and dispatches. -/
theorem encolar_efecto {hs : List Hilo} {grupo : ℕ} {pcb : ℤ} (tiempo : ℤ) {p : Pcb}
    (h : Flujos (vistaIo k) hs)
    (hg : grupoDe k grupo = some g) (hp : k.pcbs pcb = some p) :
    Flujos (vistaIo (encolarSolicitud k grupo pcb tiempo)) hs ∧
      ∀ q, (pedidosIo (encolarSolicitud k grupo pcb tiempo).dispositivosIo).count q =
        (pedidosIo k.dispositivosIo).count q + [p.pid].count q := by
  obtain ⟨gs, gs', hk⟩ := List.append_of_mem (List.mem_of_find?_eq_some hg)
  rw [encolarSolicitud, hg, hp]
  dsimp only
  have hcola : Flujos { vistaIo k with dispositivos := gs ++ { g with
      colaEsperaCompartida := g.colaEsperaCompartida ++ [⟨p.pid, tiempo⟩] } :: gs' } hs :=
    h.cola hk rfl rfl rfl
  obtain ⟨hflujos, hds⟩ := flujos_guardar hcola hk h.grupos.ids rfl
  refine ⟨hflujos, fun q => ?_⟩
  rw [hds, hk, count_pedidos, count_pedidos, pedidos_despachar.count_eq]
  simp only [pedidosDe, List.map_append, List.count_append]
  simp only [List.map_cons, List.map_nil]
  omega

theorem despacharGrupo_efecto {grupo : ℕ} (h : Flujos (vistaIo k) hs) :
    Flujos (vistaIo (despacharGrupo k grupo)) hs ∧
      ∀ q, (pedidosIo (despacharGrupo k grupo).dispositivosIo).count q =
        (pedidosIo k.dispositivosIo).count q := by
  rw [despacharGrupo]
  split
  · next g hg =>
      obtain ⟨gs, gs', hk⟩ := List.append_of_mem (List.mem_of_find?_eq_some hg)
      obtain ⟨hflujos, hds⟩ := flujos_guardar (h.cola hk rfl rfl rfl) hk h.grupos.ids rfl
      refine ⟨hflujos, fun q => ?_⟩
      rw [hds, hk, count_pedidos, count_pedidos, pedidos_despachar.count_eq]
  · exact ⟨h, fun _ => rfl⟩

/-- `manejar_fin_io` frees the instance, and dispatches. -/
theorem finIo_efecto (h : Flujos (vistaIo k) (l ++ .escuchaIo fd nombre t :: r))
    (hpedido : pedidoIo k fd t = some pid) :
    Flujos (vistaIo (manejarFinIo c k pid fd)) (l ++ .escuchaIo fd nombre (t + 1) :: r) ∧
      (∀ q, (pedidosIo (manejarFinIo c k pid fd).dispositivosIo).count q + [pid].count q =
        (pedidosIo k.dispositivosIo).count q) ∧
      ∃ g, grupoDeSocket k fd = some g := by
  obtain ⟨g, hg, hnombre, hfd, hx⟩ := pedido_en_curso h (mem_medio.mpr (Or.inl rfl)) hpedido
  obtain ⟨x, hxmem, hxfd⟩ := List.mem_map.mp hfd
  have hsocket : grupoDeSocket k fd = some g := by
    cases hbusca : grupoDeSocket k fd with
    | none =>
      have hno := List.find?_eq_none.mp hbusca g hg
      exact absurd (List.any_eq_true.mpr ⟨x, hxmem, decide_eq_true hxfd⟩) hno
    | some g' =>
      have hbusca' : k.dispositivosIo.find? (fun g => g.instancias.any fun x => x.socketFd = fd) =
        some g' := hbusca
      have hen := List.find?_some hbusca'
      obtain ⟨y, hy, hyfd⟩ := List.any_eq_true.mp hen
      have hfd' : fd ∈ fds g' := List.mem_map.mpr ⟨y, hy, of_decide_eq_true hyfd⟩
      rw [h.grupos.grupo hg (List.mem_of_find?_eq_some hbusca) hfd hfd']
  obtain ⟨gs, gs', hk⟩ := List.append_of_mem hg
  have hdespierta : vistaIo (despertarDeIo c k pid) = vistaIo k := vistaIo_despertarDeIo c k pid
  have hds : (despertarDeIo c k pid).dispositivosIo = k.dispositivosIo :=
    congrArg VistaIo.dispositivos hdespierta
  have hocupado : ∀ y ∈ g.instancias, y.socketFd = fd → y.ocupado = true := by
    intro y hy hyfd
    have huno := hx y hy hyfd
    rw [pedido] at huno
    split at huno
    · next hocupado => exact hocupado
    · cases huno
  have htermina := h.termina hk hfd hocupado
  rw [manejarFinIo, hsocket]
  dsimp only
  have hids : ((despertarDeIo c k pid).dispositivosIo.map GrupoIo.id).Nodup := hds ▸ h.grupos.ids
  have hlibre : Flujos { vistaIo (despertarDeIo c k pid) with
      dispositivos := gs ++ liberarInstancia g fd :: gs' }
      (l ++ .escuchaIo fd nombre (t + 1) :: r) := hdespierta ▸ htermina
  obtain ⟨hflujos, hdis⟩ := flujos_guardar (g := g) hlibre (hds ▸ hk) hids rfl
  refine ⟨hflujos, fun q => ?_, g, rfl⟩
  obtain ⟨xs, ys, hinst, hotras⟩ := parte_instancia (h.grupos.nodup hg) hxmem
  have hlibera : (liberarInstancia g fd).instancias = xs ++ { x with ocupado := false } :: ys := by
    have hajenas : ∀ zs : List Instancia, (∀ y ∈ zs, y ∈ xs ++ ys) → zs.map (fun y =>
        if y.socketFd = fd then { y with ocupado := false } else y) = zs := by
      intro zs hzs
      refine (List.map_congr_left fun y hy => if_neg ?_).trans (List.map_id zs)
      exact hxfd ▸ hotras y (hzs y hy)
    rw [liberarInstancia, hinst, List.map_append, List.map_cons, if_pos hxfd,
      hajenas xs fun y hy => List.mem_append_left _ hy, hajenas ys fun y hy =>
        List.mem_append_right _ hy]
  have hantes : pedidosDe g = (xs ++ x :: ys).flatMap pedido ++
      g.colaEsperaCompartida.map Solicitud.pid := by
    rw [pedidosDe, hinst]
  have hdespues : pedidosDe (liberarInstancia g fd) =
      (xs ++ { x with ocupado := false } :: ys).flatMap pedido ++
        g.colaEsperaCompartida.map Solicitud.pid := by
    rw [pedidosDe, hlibera]
    rfl
  have hlibre : pedido { x with ocupado := false } = [] := rfl
  rw [hdis, hk, count_pedidos, count_pedidos, pedidos_despachar.count_eq, hantes, hdespues]
  simp only [List.flatMap_append, List.flatMap_cons, List.count_append, hx x hxmem hxfd, hlibre,
    List.count_nil]
  omega

/-- The request of a lost instance goes back to its queue, if its process is found. -/
theorem reencolar_efecto {x : Instancia} (hx : x ∈ g.instancias)
    (hbusca : ∀ q ∈ pedidosDe g, buscarPcbPorPid k q = some (some q) ∧ ∃ p, k.pcbs q = some p ∧
      p.pid = q) :
    ∃ g₁, reencolar k g x = some g₁ ∧ g₁.id = g.id ∧ g₁.nombreDispositivo = g.nombreDispositivo ∧
      g₁.instancias = g.instancias ∧
      g₁.colaEsperaCompartida.map Solicitud.pid = pedido x ++
        g.colaEsperaCompartida.map Solicitud.pid := by
  rw [reencolar, pedido]
  split
  · next hocupado =>
      have hmem : x.pidEnEjecucion ∈ pedidosDe g := by
        refine List.mem_append_left _ (List.mem_flatMap.mpr ⟨x, hx, ?_⟩)
        rw [pedido, if_pos hocupado]
        exact List.mem_cons_self
      obtain ⟨hen, p, hp, hpid⟩ := hbusca _ hmem
      rw [hen]
      dsimp only
      rw [hp]
      exact ⟨_, rfl, rfl, rfl, rfl, congrArg (· :: _) hpid⟩
  · exact ⟨g, rfl, rfl, rfl, rfl, rfl⟩

/-- What `manejar_desconexion_io` does to the devices. The requests of a device that is left
without instances are those of the processes to finalise. -/
theorem desconexion_efecto (h : Flujos (vistaIo k) (l ++ .escuchaIo fd nombre t :: r))
    (hbusca : ∀ q ∈ pedidosIo k.dispositivosIo,
      buscarPcbPorPid k q = some (some q) ∧ ∃ p, k.pcbs q = some p ∧ p.pid = q) :
    Flujos (vistaIo (manejarDesconexionIo k nombre fd).1) (l ++ r) ∧
      ∃ sols k', manejarDesconexionIo k nombre fd = (k', (vaciarEspera sols k).2) ∧
        k'.colas = (vaciarEspera sols k).1.colas ∧ k'.pcbs = k.pcbs ∧
        ∀ q, (pedidosIo k'.dispositivosIo).count q + (sols.map Solicitud.pid).count q =
          (pedidosIo k.dispositivosIo).count q := by
  obtain ⟨g, hg, hnombre, hfd, -⟩ := h.escuchas fd nombre t (mem_medio.mpr (Or.inl rfl))
  obtain ⟨x, hx, hxfd⟩ := List.mem_map.mp hfd
  have hgrupo : buscarGrupo k nombre = some g := by
    have hunico := find_unico (f := GrupoIo.nombreDispositivo) h.grupos.nombres hg
    rw [hnombre] at hunico
    exact hunico
  have hinstancia : (g.instancias.find? fun y => y.socketFd = fd) = some x := by
    have hunico := find_unico (f := Instancia.socketFd) (h.grupos.nodup hg) hx
    rw [hxfd] at hunico
    exact hunico
  obtain ⟨g₁, hreenc, hid, hnom, hinst₁, hcola⟩ := reencolar_efecto (k := k) hx fun q hq =>
    hbusca q (List.mem_flatMap.mpr ⟨g, hg, hq⟩)
  obtain ⟨xs, ys, hinst, hotras⟩ := parte_instancia (h.grupos.nodup hg) hx
  have hfiltra : g₁.instancias.filter (fun y => y.socketFd ≠ fd) = xs ++ ys := by
    have hpos : ∀ y ∈ xs ++ ys, decide (y.socketFd ≠ fd) = true := fun y hy =>
      decide_eq_true (hxfd ▸ hotras y hy)
    rw [hinst₁, hinst, List.filter_append, List.filter_cons_of_neg (by simp [hxfd]),
      List.filter_eq_self.mpr fun y hy => hpos y (List.mem_append_left _ hy),
      List.filter_eq_self.mpr fun y hy => hpos y (List.mem_append_right _ hy)]
  obtain ⟨gs, gs', hpartes⟩ := List.append_of_mem hg
  have hk : k.dispositivosIo = gs ++ g :: gs' := hpartes
  have hgrupos : Registrados k.dispositivosIo k.totalGrupos := h.grupos
  rw [hk] at hgrupos
  have hquedan : ∀ y ∈ gs ++ gs', y ∈ k.dispositivosIo ∧ fd ∉ fds y := by
    intro y hy
    refine ⟨?_, fun hmem => ?_⟩
    · rw [hk]
      simp only [List.mem_append, List.mem_cons] at hy ⊢
      tauto
    · exact hgrupos.ajena hfd (List.mem_flatMap.mpr ⟨y, hy, hmem⟩)
  have hotros : ∀ y ∈ k.dispositivosIo, y ∈ gs ++ gs' ∨ y = g := by
    intro y hy
    rw [hk] at hy
    simp only [List.mem_append, List.mem_cons] at hy ⊢
    tauto
  have hpedidos : ∀ q, (pedidosDe { g₁ with instancias := xs ++ ys }).count q =
      (pedidosDe g).count q := by
    intro q
    simp only [pedidosDe, hinst, hcola, List.flatMap_append, List.flatMap_cons, List.count_append]
    omega
  have hids : ((gs ++ g :: gs').map GrupoIo.id).Nodup := hk ▸ h.grupos.ids
  rw [manejarDesconexionIo, hgrupo]
  dsimp only
  rw [hinstancia]
  dsimp only
  rw [hreenc]
  dsimp only
  rw [hfiltra]
  split
  · next hvacia =>
      -- the last instance: the group is destroyed
      have hnada : xs ++ ys = [] := List.isEmpty_iff.mp hvacia
      obtain ⟨colas, i, hvaciar⟩ := vaciarEspera_eq k g₁.colaEsperaCompartida
      have hds : ((vaciarEspera g₁.colaEsperaCompartida k).1.dispositivosIo.filter fun y =>
          y.id ≠ g.id) =
          gs ++ gs' := by
        rw [hvaciar]
        dsimp only
        rw [hk]
        exact quita_grupo hids
      have hsale : Flujos { vistaIo k with dispositivos := gs ++ gs' } (l ++ r) := by
        refine h.desconecta hgrupos.sale (fun y hy => ?_) fun y hy fd' hfd' hne => ?_
        · refine ⟨y, (hquedan y hy).1, rfl, fun fd' hfd' => ⟨hfd', ?_⟩⟩
          rintro rfl
          exact (hquedan y hy).2 hfd'
        · rcases hotros y hy with hy' | rfl
          · exact ⟨y, hy', rfl, hfd', fun z hz => hz⟩
          · -- the lost connection was the only one
            obtain ⟨hxs, hys⟩ := List.append_eq_nil_iff.mp hnada
            rw [fds, hinst, hxs, hys] at hfd'
            exact absurd ((List.mem_singleton.mp hfd').trans hxfd) hne
      refine ⟨?_, g₁.colaEsperaCompartida, _, rfl, rfl, ?_, fun q => ?_⟩
      · rw [vistaIo]
        dsimp only
        rw [hds, hvaciar]
        exact hsale
      · rw [hvaciar]
      · dsimp only
        rw [hds, hk, count_pedidos, ← hpedidos q, pedidosDe, hnada]
        rfl
  · have hcambia : Registrados (gs ++ { g₁ with instancias := xs ++ ys } :: gs') k.totalGrupos := by
      refine hgrupos.cambia hid hnom ?_
      rw [fds, fds, hinst]
      exact ((List.Sublist.refl xs).append (List.sublist_cons_self x ys)).map _
    have hsale : Flujos { vistaIo k with
        dispositivos := gs ++ { g₁ with instancias := xs ++ ys } :: gs' } (l ++ r) := by
      refine h.desconecta hcambia (fun y hy => ?_) fun y hy fd' hfd' hne => ?_
      · have hy' : y ∈ gs ++ gs' ∨ y = { g₁ with instancias := xs ++ ys } := by
          simp only [List.mem_append, List.mem_cons] at hy ⊢
          tauto
        rcases hy' with hy' | rfl
        · refine ⟨y, (hquedan y hy').1, rfl, fun fd' hfd' => ⟨hfd', ?_⟩⟩
          rintro rfl
          exact (hquedan y hy').2 hfd'
        · refine ⟨g, hg, hnom.symm, fun fd' hfd' => ?_⟩
          obtain ⟨y, hy, rfl⟩ := List.mem_map.mp hfd'
          refine ⟨List.mem_map.mpr ⟨y, ?_, rfl⟩, hxfd ▸ hotras y hy⟩
          rw [hinst]
          simp only [List.mem_append, List.mem_cons] at hy ⊢
          tauto
      · rcases hotros y hy with hy' | rfl
        · refine ⟨y, ?_, rfl, hfd', fun z hz => hz⟩
          simp only [List.mem_append, List.mem_cons] at hy' ⊢
          tauto
        · refine ⟨_, List.mem_append_right _ List.mem_cons_self, hnom, ?_, fun z hz => ?_⟩
          · rw [fds, hinst] at hfd'
            obtain ⟨z, hz, rfl⟩ := List.mem_map.mp hfd'
            refine List.mem_map.mpr ⟨z, ?_, rfl⟩
            simp only [List.mem_append, List.mem_cons] at hz ⊢
            rcases hz with hz | rfl | hz
            · exact Or.inl hz
            · exact absurd hxfd hne
            · exact Or.inr hz
          · rw [hinst]
            simp only [List.mem_append, List.mem_cons] at hz ⊢
            tauto
    obtain ⟨hflujos, hds⟩ := flujos_guardar hsale hk h.grupos.ids hid
    refine ⟨hflujos, [], _, rfl, rfl, rfl, fun q => ?_⟩
    rw [hds, hk, count_pedidos, count_pedidos, pedidos_despachar.count_eq, hpedidos]
    rfl

theorem registrar_efecto (grupo : ℕ) (h : Flujos (vistaIo k) (l ++ .ioRegistra fd nombre :: r)) :
    Flujos (vistaIo (registrarInstancia k nombre fd).1)
        (l ++ .ioResponde fd grupo :: .escuchaIo fd nombre 0 :: r) ∧
      ∀ q, (pedidosIo (registrarInstancia k nombre fd).1.dispositivosIo).count q =
        (pedidosIo k.dispositivosIo).count q := by
  have hnueva : fd ∉ k.dispositivosIo.flatMap fds := h.nueva (mem_medio.mpr (Or.inl rfl))
  have hgrupos : Registrados k.dispositivosIo k.totalGrupos := h.grupos
  have hotra : ∀ g ∈ k.dispositivosIo, ∀ z ∈ g.instancias, z.socketFd ≠ fd := by
    rintro g hg z hz rfl
    exact hnueva (List.mem_flatMap.mpr ⟨g, hg, List.mem_map.mpr ⟨z, hz, rfl⟩⟩)
  rw [registrarInstancia]
  cases hbusca : buscarGrupo k nombre with
  | some g =>
    have hbusca' : k.dispositivosIo.find? (fun g => g.nombreDispositivo = nombre) = some g := hbusca
    have hg : g ∈ k.dispositivosIo := List.mem_of_find?_eq_some hbusca
    have hen := List.find?_some hbusca'
    have hnombre : g.nombreDispositivo = nombre := of_decide_eq_true hen
    obtain ⟨gs, gs', hk⟩ := List.append_of_mem hg
    have hds : (k.dispositivosIo.map fun h =>
        if h.id = g.id then { h with instancias := h.instancias ++ [⟨fd, false, 0⟩] } else h) =
        gs ++ { g with instancias := g.instancias ++ [⟨fd, false, 0⟩] } :: gs' := by
      have hids : ((gs ++ g :: gs').map GrupoIo.id).Nodup := hk ▸ hgrupos.ids
      have hid : ({ g with instancias := g.instancias ++ [⟨fd, false, 0⟩] } : GrupoIo).id =
          g.id := rfl
      have hcambia := reemplaza hids hid
      rw [← hcambia, ← hk]
      refine List.map_congr_left fun y hy => ?_
      by_cases hid : y.id = g.id
      · rw [List.inj_on_of_nodup_map hgrupos.ids hy hg hid]
      · exact (if_neg hid).trans (if_neg hid).symm
    rw [hk] at hgrupos
    have hfds : fds { g with instancias := g.instancias ++ [⟨fd, false, 0⟩] } = fds g ++ [fd] :=
      List.map_append
    dsimp only
    rw [vistaIo]
    dsimp only
    rw [hds]
    have hcasos : ∀ {y}, y ∈ k.dispositivosIo → y ∈ gs ++ gs' ∨ y = g := by
      intro y hy
      rw [hk] at hy
      simp only [List.mem_append, List.mem_cons] at hy ⊢
      tauto
    constructor
    · refine h.registra (hgrupos.conecta rfl rfl hfds (hk ▸ hnueva)) ?_ ?_ ?_
      · intro y hy fd' hfd'
        have hy' : y ∈ k.dispositivosIo ∨
            y = { g with instancias := g.instancias ++ [⟨fd, false, 0⟩] } := by
          rw [hk]
          simp only [List.mem_append, List.mem_cons] at hy ⊢
          tauto
        rcases hy' with hy' | rfl
        · exact Or.inr ⟨y, hy', rfl, hfd'⟩
        · rw [hfds] at hfd'
          rcases List.mem_append.mp hfd' with hfd' | hfd'
          · exact Or.inr ⟨g, hg, rfl, hfd'⟩
          · exact Or.inl ⟨List.mem_singleton.mp hfd', hnombre⟩
      · intro y hy
        rcases hcasos hy with hy' | rfl
        · refine ⟨y, ?_, rfl, List.Subset.refl _, fun z hz _ => hz⟩
          simp only [List.mem_append, List.mem_cons] at hy' ⊢
          tauto
        · refine ⟨_, List.mem_append_right _ List.mem_cons_self, rfl, ?_, fun z hz hne => ?_⟩
          · rw [hfds]
            exact List.subset_append_left _ _
          · rcases List.mem_append.mp hz with hz | hz
            · exact hz
            · rw [List.mem_singleton.mp hz] at hne
              exact absurd rfl hne
      · refine ⟨_, List.mem_append_right _ List.mem_cons_self, hnombre, ?_, fun z hz hzfd => ?_⟩
        · rw [hfds]
          exact List.mem_append_right _ List.mem_cons_self
        · rcases List.mem_append.mp hz with hz | hz
          · exact absurd hzfd (hotra g hg z hz)
          · exact List.mem_singleton.mp hz
    · intro q
      have hlibre : pedido ⟨fd, false, 0⟩ = [] := rfl
      rw [hk, count_pedidos, count_pedidos, pedidosDe, pedidosDe]
      simp only [List.flatMap_append, List.flatMap_singleton, hlibre, List.append_nil]
  | none =>
    have hno : ∀ y ∈ k.dispositivosIo, y.nombreDispositivo ≠ nombre := fun y hy heq =>
      List.find?_eq_none.mp hbusca y hy (decide_eq_true heq)
    dsimp only
    constructor
    · refine h.registra (hgrupos.entra rfl hno rfl hnueva) ?_ ?_ ?_
      · intro y hy fd' hfd'
        rcases List.mem_append.mp hy with hy | hy
        · exact Or.inr ⟨y, hy, rfl, hfd'⟩
        · rw [List.mem_singleton.mp hy] at hfd' ⊢
          exact Or.inl ⟨List.mem_singleton.mp hfd', rfl⟩
      · exact fun y hy => ⟨y, List.mem_append_left _ hy, rfl, List.Subset.refl _, fun z hz _ => hz⟩
      · refine ⟨_, List.mem_append_right _ List.mem_cons_self, rfl, List.mem_cons_self,
          fun z hz _ => ?_⟩
        exact List.mem_singleton.mp hz
    · intro q
      rw [pedidosIo, List.flatMap_append, List.count_append]
      exact Nat.add_zero _

theorem filtra_igual (ds os : List Hilo) (h : ds.filter deIo = os.filter deIo) :
    (l ++ (ds ++ r)).filter deIo = (l ++ (os ++ r)).filter deIo := by
  rw [List.filter_append, List.filter_append, List.filter_append, List.filter_append, h]

theorem ajeno_a_io (ha : tocaIo a = false) :
    deIo ((programa c).origen a) = false ∧ ((programa c).destino k a).filter deIo = [] := by
  cases a with
  | conectaCpu _ | conectaIo _ | moduloSaluda _ _ | escuchaEncola _ _ _ _ | ioRegistra _ _
  | ioResponde _ _ | ioDespacha _ | ioTermina _ _ _ _ | ioDesconecta _ _ _ => cases ha
  | recibeRespuesta cpu fd q pc motivo =>
    refine ⟨rfl, ?_⟩
    dsimp only [programa, transicion, trasRespuesta]
    repeat' split
    all_goals cases motivo <;> rfl
  | _ =>
    refine ⟨rfl, ?_⟩
    dsimp only [programa, transicion, trasDump]
    repeat' split
    all_goals rfl

/-- The devices and their threads after a step. -/
theorem flujos_paso (h : Flujos (vistaIo k) (l ++ (programa c).origen a :: r))
    (hg : (programa c).guarda k a)
    (hbusca : ∀ q ∈ pedidosIo k.dispositivosIo,
      buscarPcbPorPid k q = some (some q) ∧ ∃ p, k.pcbs q = some p ∧ p.pid = q) :
    Flujos (vistaIo ((programa c).efecto k a)) (l ++ ((programa c).destino k a ++ r)) := by
  cases hto : tocaIo a with
  | false =>
    rw [vistaIo_efecto c k hto]
    obtain ⟨ho, hd⟩ := ajeno_a_io (c := c) (k := k) hto
    refine h.ajeno (filtra_igual _ [(programa c).origen a] ?_)
    rw [hd, List.filter_cons_of_neg (by simp [ho]), List.filter_nil]
  | true =>
    cases a with
    | conectaCpu nombre => exact Flujos.ajeno (Flujos.abre h) (filtra_igual _ [.aceptaCpus] rfl)
    | moduloSaluda fd nombre =>
      exact Flujos.ajeno (Flujos.abre h) (filtra_igual _ [.moduloSaluda fd nombre] rfl)
    | conectaIo nombre =>
      have hsin : Flujos (vistaIo k) (l ++ r) :=
        h.ajeno (filtra_igual [] [.aceptaIos] rfl)
      exact Flujos.ajeno (hsin.conecta nombre)
        (filtra_igual _ [.ioRegistra k.totalConexiones nombre] rfl)
    | ioRegistra fd nombre => exact (registrar_efecto _ h).1
    | ioResponde fd grupo =>
      have hvista : vistaIo (k.enviar (.io fd) .handshakeOk) =
          { vistaIo k with enviados :=
            Function.update (vistaIo k).enviados fd ((vistaIo k).enviados fd ++
              [.handshakeOk]) } := by
        have henv : ∀ fd', (k.enviar (.io fd) .handshakeOk).enviados (.io fd') =
            Function.update (vistaIo k).enviados fd ((vistaIo k).enviados fd ++
              [.handshakeOk]) fd' := by
          intro fd'
          by_cases heq : fd' = fd
          · subst heq
            rw [Function.update_self]
            exact k.enviar_mismo _
          · rw [Function.update_of_ne heq]
            exact k.enviar_otro _ (by simpa using heq)
        exact congrArg (fun e => { vistaIo k with enviados := e }) (funext henv)
      have hresponde := h.responde
      rw [← hvista] at hresponde
      exact hresponde.ajeno (filtra_igual _ [] rfl)
    | escuchaEncola cpu pcb grupo duracion =>
      refine Flujos.ajeno ?_ (filtra_igual _ [.escuchaEncola cpu pcb grupo duracion] rfl)
      cases hgrupo : grupoDe k grupo with
      | none =>
        dsimp only [programa, transicion, encolarSolicitud]
        rw [hgrupo]
        exact h
      | some g =>
        cases hp : k.pcbs pcb with
        | none =>
          dsimp only [programa, transicion, encolarSolicitud]
          rw [hgrupo, hp]
          exact h
        | some p => exact (encolar_efecto duracion h hgrupo hp).1
    | ioDespacha grupo =>
      exact Flujos.ajeno (despacharGrupo_efecto h).1 (filtra_igual _ [.ioDespacha grupo] rfl)
    | ioTermina fd nombre t pid =>
      have hpedido : pedidoIo k fd t = some pid := by
        have hg' := hg.2
        dsimp only [transicion] at hg'
        simp only [Bool.and_eq_true, decide_eq_true_eq] at hg'
        exact hg'.2
      exact (finIo_efecto h hpedido).1
    | ioDesconecta fd nombre t =>
      exact Flujos.ajeno (desconexion_efecto h hbusca).1 (filtra_igual _ [] rfl)
    | _ => cases hto

theorem flujos_inicial : Flujos (vistaIo inicial)
    [.aceptaCpus, .aceptaIos, .reloj, .largoArranca, .cortoEspera, .gestorEspera] := by
  constructor
  · exact ⟨List.nodup_nil, nofun, List.nodup_nil, List.nodup_nil⟩
  · exact List.nodup_nil
  · intro h hh fd hfd
    simp only [List.mem_cons, List.not_mem_nil, or_false] at hh
    rcases hh with rfl | rfl | rfl | rfl | rfl | rfl <;> simp [conexionDe, saludaA] at hfd
  · exact fun _ _ => rfl
  · exact fun _ => Nat.zero_le _
  · exact fun _ => rfl
  · exact fun _ _ _ => rfl
  · exact nofun
  · intro fd nombre t hh
    simp at hh

end Acciones

end KernelFlujos

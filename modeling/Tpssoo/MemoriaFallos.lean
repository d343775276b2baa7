import Tpssoo.MemoriaPrivada

/-!
# Swap file failures

What a suspension and a desuspension do when the swap file fails. `escribir_en_swap`
reports a failure and the walk goes on; `leer_de_swap` reports none. Pages are safe, and
the answers true, when the calls that the request makes move their whole page.
-/
namespace MemoriaFallos

open Bucles Protocolo MapaDeBits MemoriaEstado MemoriaSwap MemoriaPaginacion MemoriaPeticiones
  MemoriaFilas MemoriaEfectos MemoriaInvariante MemoriaMarcos MemoriaContenido MemoriaPrivada

variable {cfg : Config} {env : Entorno} {m m' : Memoria cfg} {pet : Peticion} {pid : ℤ}
  {envios : List Envio}

/-- Every assigned page keeps its content, and an `OK` is sent only when no page of the
process is left in RAM, or in swap. -/
structure ASalvo (m : Memoria cfg) (pid : ℤ) (envios : List Envio) (m' : Memoria cfg) : Prop where
  paginas : ∀ otro k xs, paginaLogica m otro k = some xs → paginaLogica m' otro k = some xs
  suspension : envios = responder OpCode.suspensionOk.codigo →
    ∀ k e, EntradaDe m' pid k e → e.presente = false
  desuspension : envios = responder OpCode.desuspensionOk.codigo →
    ∀ k e, EntradaDe m' pid k e → e.enSwap = false

/-- The calls of the request move their whole page. A suspension finds every page in swap
whole in the file, creates the file only if no page is in it, and takes slots whose offsets
fit in an int; a desuspension finds the pages of its process whole in the file. -/
def SwapSano (env : Entorno) (m : Memoria cfg) : Peticion → Prop
  | .suspenderProceso pid => ∀ p, buscarProceso m.diccionarioProcesos pid = some p →
      0 < contarPaginasPresentes p.tablaNivel1 →
      (∀ e ∈ todasEntradas m.diccionarioProcesos, e.posicionSwap ≠ -1 →
        EnArchivo cfg m.almacen.archivoSwap e.posicionSwap) ∧
      EscriturasSanas cfg env.swap 0 (contarPaginasPresentes p.tablaNivel1)
        (todasEntradas m.diccionarioProcesos) ∧
      ∀ slot ∈ tomarSlots env.swap 0 (contarPaginasPresentes p.tablaNivel1) m.almacen.bitmapSwap,
        SlotCabe cfg slot
  | .desuspenderProceso pid => ∀ p, buscarProceso m.diccionarioProcesos pid = some p →
      contarPaginasEnSwap p.tablaNivel1 ≤ contarMarcosLibres m.almacen.bitmapMarcos →
      (∀ n < contarPaginasEnSwap p.tablaNivel1, LecturaSana cfg (env.swap n)) ∧
      ∀ e ∈ p.entradas, e.enSwap = true → Guardada cfg m.almacen.archivoSwap e
  | _ => True

/-- Every writing call of a suspension writes its page. -/
def EscribenTodas (env : Entorno) (m : Memoria cfg) : Peticion → Prop
  | .suspenderProceso pid => ∀ p, buscarProceso m.diccionarioProcesos pid = some p →
      ∀ n < contarPaginasPresentes p.tablaNivel1, (env.swap n).Escribe cfg
  | _ => True

section Respuestas

variable {swap : ℕ → AccesoSwap} {r : Recorrido} {row : List EntradaTabla}

theorem suspenderEntrada_falla {e : EntradaTabla} (hp : e.presente = true)
    (hacc : ¬ (swap r.accesos).Escribe cfg) :
    (suspenderEntrada cfg swap r e).2 = e ∧
      (suspenderEntrada cfg swap r e).1.accesos = r.accesos + 1 := by
  have hneg : (escribirEnSwap cfg (swap r.accesos) r.almacen
      (contenidoMarco cfg r.almacen.memoriaUsuario e.numeroMarco)).1 = -1 :=
    escribirEnSwap_eq_neg_iff.mpr hacc
  simp [suspenderEntrada, hp, hneg]

/-- No page of the row stays in RAM exactly when every call writes its page. -/
theorem ninguna_presente_iff (cfg : Config) (swap : ℕ → AccesoSwap) (r : Recorrido)
    (row : List EntradaTabla) :
    (∀ e ∈ (suspenderTodo cfg swap r row).2, e.presente = false) ↔
      ∀ n < row.countP EntradaTabla.presente, (swap (r.accesos + n)).Escribe cfg := by
  induction row generalizing r with
  | nil => simp [suspenderTodo, bucle]
  | cons e row ih =>
    have hcola := ih (suspenderEntrada cfg swap r e).1
    unfold suspenderTodo at hcola
    simp only [suspenderTodo, bucle, List.mem_cons, forall_eq_or_imp, hcola, List.countP_cons]
    cases hp : e.presente with
    | false => simp [suspenderEntrada_ausente hp, hp]
    | true =>
      simp only [if_true]
      by_cases hacc : (swap r.accesos).Escribe cfg
      · obtain ⟨hsale, hsube, -⟩ := suspenderEntrada_escribe hp hacc
        rw [hsale, hsube]
        constructor
        · rintro ⟨-, h⟩ n hn
          cases n with
          | zero => exact hacc
          | succ n =>
            have hn' := h n (by omega)
            rwa [Nat.add_assoc, Nat.add_comm 1 n] at hn'
        · intro h
          refine ⟨rfl, ?_⟩
          intro n hn
          have hn' := h (n + 1) (by omega)
          rwa [Nat.add_comm n 1, ← Nat.add_assoc] at hn'
      · obtain ⟨hsale, -⟩ := suspenderEntrada_falla hp hacc
        constructor
        · rintro ⟨hno, -⟩
          rw [hsale, hp] at hno
          cases hno
        · intro h
          exact absurd (h 0 (Nat.zero_lt_succ _)) hacc

/-- With a free frame for each page in swap, none stays there. -/
theorem ninguna_en_swap
    (h : row.countP EntradaTabla.enSwap ≤ contarMarcosLibres r.almacen.bitmapMarcos) :
    ∀ e ∈ (desuspenderTodo cfg swap r row).2, e.enSwap = false := by
  induction row generalizing r with
  | nil => simp [desuspenderTodo, bucle]
  | cons e row ih =>
    rw [List.countP_cons] at h
    simp only [desuspenderTodo, bucle, List.mem_cons, forall_eq_or_imp]
    cases hen : e.enSwap with
    | false =>
      rw [desuspenderPaso_quieto (by simp [hen])]
      exact ⟨hen, ih (by simpa [hen] using h)⟩
    | true =>
      simp only [hen, if_true] at h
      have hlibre : buscarMarcoLibre r.almacen.bitmapMarcos ≠ -1 := by
        intro hlleno
        have hcero : contarMarcosLibres r.almacen.bitmapMarcos = 0 :=
          buscarMarcoLibre_eq_neg_iff.mp hlleno
        omega
      have hcuenta := count_ocuparMarco hlibre
      constructor
      · simp only [desuspenderPaso, desuspenderEntrada, hen, if_true, hlibre, if_false]
        rfl
      · apply ih
        simp only [desuspenderPaso, desuspenderEntrada, hen, if_true, hlibre, if_false]
        unfold contarMarcosLibres at h ⊢
        omega

end Respuestas

section Peticiones

theorem buscar_conPaginas {s : Almacen × Proceso cfg} {p : Proceso cfg}
    (hp : buscarProceso m.diccionarioProcesos pid = some p) (hs : s.2.pid = p.pid) :
    buscarProceso (conPaginas m s).diccionarioProcesos pid = some s.2 := by
  have hb := buscarProceso_modificar m.diccionarioProcesos s.2 pid
  rw [hp, Option.map_some, if_pos hs.symm] at hb
  exact hb

/-- The entries of a process whose pages were moved. -/
theorem entradaDe_conPaginas {s : Almacen × Proceso cfg} {p : Proceso cfg} {k : ℕ}
    {e : EntradaTabla}
    (hp : buscarProceso m.diccionarioProcesos pid = some p) (hs : s.2.pid = p.pid) :
    EntradaDe (conPaginas m s) pid k e ↔ s.2.entradas[k]? = some e := by
  simp [EntradaDe, buscar_conPaginas hp hs]

theorem ausentes_iff (env : Entorno) {p : Proceso cfg}
    (hp : buscarProceso m.diccionarioProcesos pid = some p) :
    (∀ k e, EntradaDe (conPaginas m (suspenderPaginas env m.almacen p)) pid k e →
      e.presente = false) ↔
      ∀ n < contarPaginasPresentes p.tablaNivel1, (env.swap n).Escribe cfg := by
  obtain ⟨-, hfila, -⟩ := suspenderPaginas_eq env m.almacen p
  have hiff := ninguna_presente_iff cfg env.swap ⟨m.almacen, p.metricas, 0⟩ p.entradas
  simp only [Nat.zero_add] at hiff
  rw [contarPaginasPresentes_eq, ← hiff]
  simp only [entradaDe_conPaginas hp (suspenderPaginas_resto env m.almacen p).1, hfila]
  constructor
  · intro h e he
    obtain ⟨k, hk⟩ := List.getElem?_of_mem he
    exact h k e hk
  · intro h k e hk
    exact h e (List.mem_of_getElem? hk)

theorem suspension_salva (hinv : Invariante m) {p : Proceso cfg}
    (hp : buscarProceso m.diccionarioProcesos pid = some p)
    (hsano : SwapSano env m (.suspenderProceso pid)) :
    ∀ otro k, paginaLogica (conPaginas m (suspenderPaginas env m.almacen p)) otro k =
      paginaLogica m otro k := by
  by_cases hnada : contarPaginasPresentes p.tablaNivel1 = 0
  · -- no page is in RAM and the walk does nothing
    have hausentes : ∀ e ∈ p.entradas, e.presente = false := by
      rw [contarPaginasPresentes_eq, List.countP_eq_zero] at hnada
      simpa using hnada
    have hquieta : suspenderTodo cfg env.swap ⟨m.almacen, p.metricas, 0⟩ p.entradas =
        (⟨m.almacen, p.metricas, 0⟩, p.entradas) := by
      generalize p.entradas = row at hausentes
      induction row with
      | nil => rfl
      | cons e row ih =>
        have hfila := ih fun x hx => hausentes x (List.mem_cons_of_mem e hx)
        unfold suspenderTodo at hfila ⊢
        simp only [bucle, suspenderEntrada_ausente (hausentes e List.mem_cons_self), hfila]
    obtain ⟨ha, hfila, -⟩ := suspenderPaginas_eq env m.almacen p
    rw [hquieta] at ha hfila
    apply paginaLogica_conPaginas hp (suspenderPaginas_resto env m.almacen p).1
    · rw [ha, hfila]
    · intro e _
      rw [ha]
  · obtain ⟨harch, hesc, hoff⟩ := hsano p hp (Nat.pos_of_ne_zero hnada)
    rw [contarPaginasPresentes_eq] at hesc hoff
    have hsep := todasEntradas_separar hinv.pids hp
    have hcont : InvContenido cfg m.almacen (todasEntradas m.diccionarioProcesos) :=
      ⟨hinv.entradas, harch⟩
    rw [hsep] at hcont hesc
    exact (contenido_suspenderPaginas hinv.pids hp ⟨hcont, hesc, hoff⟩).2

theorem desuspension_salva (hinv : Invariante m) {p : Proceso cfg}
    (hp : buscarProceso m.diccionarioProcesos pid = some p)
    (hcabe : contarPaginasEnSwap p.tablaNivel1 ≤ contarMarcosLibres m.almacen.bitmapMarcos)
    (hsano : SwapSano env m (.desuspenderProceso pid)) :
    ∀ otro k, paginaLogica (conPaginas m (desuspenderPaginas env m.almacen p)) otro k =
      paginaLogica m otro k := by
  obtain ⟨hlec, hguar⟩ := hsano p hp hcabe
  rw [contarPaginasEnSwap_eq] at hlec
  refine (contenido_desuspenderPaginas hp ⟨?_, rfl, ?_, hguar⟩).2
  · exact todasEntradas_separar hinv.pids hp ▸ hinv.entradas
  · intro n hn
    rw [Nat.zero_add]
    exact hlec n hn

theorem a_salvo_suspension (hinv : Invariante m)
    (hat : atenderPostHandshake env m (.suspenderProceso pid) = some (envios, m')) :
    (SwapSano env m (.suspenderProceso pid) → ASalvo m pid envios m') ∧
      (ASalvo m pid envios m' → EscribenTodas env m (.suspenderProceso pid)) := by
  simp only [atenderPostHandshake, manejarSuspensionProceso] at hat
  cases hp : buscarProceso m.diccionarioProcesos pid with
  | none =>
    simp only [hp, Option.some.injEq, Prod.mk.injEq] at hat
    obtain ⟨rfl, rfl⟩ := hat
    refine ⟨fun _ => ⟨fun _ _ _ h => h, ?_, ?_⟩, ?_⟩
    · intro hmal
      exact absurd hmal (by decide)
    · intro hmal
      exact absurd hmal (by decide)
    · intro _ p hp'
      rw [hp] at hp'
      cases hp'
  | some p =>
    simp only [hp, Option.some.injEq, Prod.mk.injEq] at hat
    obtain ⟨rfl, rfl⟩ := hat
    have hiff := ausentes_iff env hp
    refine ⟨fun hsano => ⟨?_, ?_, ?_⟩, ?_⟩
    · intro otro k xs hxs
      rwa [suspension_salva hinv hp hsano]
    · intro _
      rw [hiff]
      intro n hn
      obtain ⟨-, hesc, -⟩ := hsano p hp (Nat.zero_lt_of_lt hn)
      obtain ⟨hbytes, habre⟩ := hesc n hn
      rw [Nat.zero_add] at hbytes habre
      exact ⟨hbytes, habre.imp_right And.left⟩
    · intro hmal
      exact absurd hmal (by decide)
    · intro hsalvo q hq
      have hqp : q = p := Option.some.inj (hq.symm.trans hp)
      rw [hqp]
      exact hiff.mp (hsalvo.suspension rfl)

theorem a_salvo_desuspension (hinv : Invariante m)
    (hat : atenderPostHandshake env m (.desuspenderProceso pid) = some (envios, m'))
    (hsano : SwapSano env m (.desuspenderProceso pid)) : ASalvo m pid envios m' := by
  simp only [atenderPostHandshake, manejarDesuspensionProceso] at hat
  cases hp : buscarProceso m.diccionarioProcesos pid with
  | none =>
    simp only [hp, Option.some.injEq, Prod.mk.injEq] at hat
    obtain ⟨rfl, rfl⟩ := hat
    refine ⟨fun _ _ _ h => h, ?_, ?_⟩ <;> intro hmal <;> exact absurd hmal (by decide)
  | some p =>
    simp only [hp] at hat
    split at hat
    · simp only [Option.some.injEq, Prod.mk.injEq] at hat
      obtain ⟨rfl, rfl⟩ := hat
      refine ⟨fun _ _ _ h => h, ?_, ?_⟩ <;> intro hmal <;> exact absurd hmal (by decide)
    · rename_i hcabe
      simp only [Option.some.injEq, Prod.mk.injEq] at hat
      obtain ⟨rfl, rfl⟩ := hat
      have hcabe' : contarPaginasEnSwap p.tablaNivel1 ≤ contarMarcosLibres
          m.almacen.bitmapMarcos := by
        omega
      refine ⟨?_, ?_, ?_⟩
      · intro otro k xs hxs
        rwa [desuspension_salva hinv hp hcabe' hsano]
      · intro hmal
        exact absurd hmal (by decide)
      · intro _ k e he
        obtain ⟨-, hfila, -⟩ := desuspenderPaginas_eq env m.almacen p
        rw [entradaDe_conPaginas hp (desuspenderPaginas_resto env m.almacen p).1, hfila] at he
        rw [contarPaginasEnSwap_eq] at hcabe'
        exact ninguna_en_swap (r := ⟨m.almacen, p.metricas, 0⟩) hcabe' e (List.mem_of_getElem? he)

theorem a_salvo_de_sano (h : Alcanzable m)
    (hpet : pet = .suspenderProceso pid ∨ pet = .desuspenderProceso pid)
    (hat : atenderPostHandshake env m pet = some (envios, m')) :
    (SwapSano env m pet → ASalvo m pid envios m') ∧
      (ASalvo m pid envios m' → EscribenTodas env m pet) := by
  have hinv := invariante_de_alcanzable h
  rcases hpet with rfl | rfl
  · exact a_salvo_suspension hinv hat
  · exact ⟨a_salvo_desuspension hinv hat, fun _ => trivial⟩

/-- A page goes to swap. -/
theorem a_salvo_ejemplo :
    ∃ m m' : Memoria configEjemplo,
      ejecutar (inicial configEjemplo) [(entornoEjemplo, .initProc 1 4 0 [])] = some m ∧
      atenderPostHandshake entornoEjemplo m (.suspenderProceso 1) =
        some (responder OpCode.suspensionOk.codigo, m') ∧
      ASalvo m 1 (responder OpCode.suspensionOk.codigo) m' := by
  have hm : ∃ m : Memoria configEjemplo,
      ejecutar (inicial configEjemplo) [(entornoEjemplo, .initProc 1 4 0 [])] = some m ∧
      (∀ p ∈ buscarProceso m.diccionarioProcesos 1, contarPaginasPresentes p.tablaNivel1 = 1) ∧
      m.almacen.bitmapSwap = List.replicate 8 false ∧
      (∀ e ∈ todasEntradas m.diccionarioProcesos, e.posicionSwap = -1) ∧
      ∃ m', atenderPostHandshake entornoEjemplo m (.suspenderProceso 1) =
        some (responder OpCode.suspensionOk.codigo, m') :=
    ⟨_, rfl, by decide, rfl, by decide, _, rfl⟩
  obtain ⟨m, hrun, hpresentes, hbits, hfuera, m', hat⟩ := hm
  refine ⟨m, m', hrun, hat, ?_⟩
  apply (a_salvo_de_sano (alcanzable_ejecutar _ .inicial hrun) (Or.inl rfl) hat).1
  intro p hp _
  rw [hpresentes p hp, hbits]
  refine ⟨?_, ?_, by decide⟩
  · intro e he hs
    exact absurd (hfuera e he) hs
  · intro n _
    exact ⟨(by decide : 4 ≤ 4096), Or.inl rfl⟩

/-- The swap file cannot be opened. -/
def entornoSinSwap : Entorno :=
  { entornoEjemplo with swap := fun _ => ⟨false, false, 0, fun _ => false, fun _ => 0⟩ }

/-- A page in swap, its old frame written by another process, and a failing read: the page
comes back with the bytes of the frame. -/
theorem pagina_perdida :
    ¬ ∀ (m m' : Memoria configEjemplo) (env : Entorno) (pet : Peticion) (pid : ℤ)
        (envios : List Envio),
      Alcanzable m → pet = .suspenderProceso pid ∨ pet = .desuspenderProceso pid →
      atenderPostHandshake env m pet = some (envios, m') → ASalvo m pid envios m' := by
  intro h
  have hm : (ejecutar (inicial configEjemplo) [(entornoEjemplo, .initProc 1 4 0 []),
      (entornoEjemplo, .suspenderProceso 1), (entornoEjemplo, .initProc 2 4 0 []),
      (entornoEjemplo, .escribirMemoria 2 0 0 4 [9, 9, 9, 9]),
      (entornoEjemplo, .finalizarProceso 2)]).any (fun m =>
        paginaLogica m 1 0 = some [0, 0, 0, 0] ∧
        (atenderPostHandshake entornoSinSwap m (.desuspenderProceso 1)).any (fun r =>
          paginaLogica r.2 1 0 ≠ some [0, 0, 0, 0])) = true := by decide +kernel
  obtain ⟨m, hrun, hm⟩ := (Option.any_eq_true _ _).mp hm
  simp only [decide_eq_true_eq] at hm
  obtain ⟨hantes, hdespues⟩ := hm
  obtain ⟨⟨envios, m'⟩, hat, hcambia⟩ := (Option.any_eq_true _ _).mp hdespues
  simp only [decide_eq_true_eq] at hcambia
  exact hcambia ((h m m' _ _ 1 envios (alcanzable_ejecutar _ .inicial hrun)
    (Or.inr rfl) hat).paginas
    1 0 _ hantes)

end Peticiones

end MemoriaFallos

import Tpssoo.KernelGestor
import Tpssoo.KernelLugares
import Tpssoo.SistemaConjunto

/-!
# The requests of the kernel to Memoria

A connection belongs to a thread that waits for its answer, and carries the request of the
point at which it waits. An answer reaches its thread, or is still on the connection: what
the steps of the kernel and of Memoria do to it is said once, for every request.
-/
namespace SistemaTramites

open EnterosC Protocolo KernelEstado KernelFunciones KernelHilos KernelLargoPlazo KernelGestor
open MemoriaEstado MemoriaPeticiones SistemaConjunto Entrelazado Tartamudeo

variable {cfg : Config} {c : ConfigKernel} {s s' : Conjunto cfg}

/-- The request of a thread that waits for Memoria. -/
def Corresponde : Hilo → Peticion → Prop
  | .largoAguarda pcb susp, peticion =>
    if susp then peticion = .desuspenderProceso pcb
    else ∃ tamanio largo path, peticion = .initProc pcb tamanio largo path
  | .gestorAguarda pcb, peticion => peticion = .finalizarProceso pcb
  | .suspensionAguarda pid, peticion => peticion = .suspenderProceso pid
  | .dumpAguarda pcb, peticion => peticion = .dumpMemory pcb
  | _, _ => False

structure Conexas (s : Conjunto cfg) : Prop where
  esperan : ∀ h, (s.conexiones.map Conexion.hilo).count h ≤ s.kernel.hilos.count h
  corresponden : ∀ x ∈ s.conexiones, Corresponde x.hilo x.peticion

/-- The thread of the connection takes its answer with the action. -/
def Toma (c : ConfigKernel) (a : Accion) (x : Conexion) : Prop :=
  x.hilo = (programa c).origen a ∧ ∃ envios esperado ok, x.respuesta = some envios ∧
    espera a = some (esperado, ok) ∧ confirma esperado envios = ok

/-- What a step of the kernel does to its connections. -/
structure Conecta (c : ConfigKernel) (k : Kernel) (a : Accion) (xs ys : List Conexion) : Prop where
  nuevas : ∀ y ∈ ys, y ∈ xs ∨ abre k a = some y
  quedan : ∀ x ∈ xs, x ∈ ys ∨ Toma c a x
  toma : espera a ≠ none → ∃ x ∈ xs, Toma c a x
  cuenta : ∀ h, (ys.map Conexion.hilo).count h +
      (if espera a ≠ none ∧ (programa c).origen a = h then 1 else 0) =
    (xs.map Conexion.hilo).count h + ((abre k a).toList.map Conexion.hilo).count h

/-- The action of the kernel in an event. -/
def accionDe : Evento → Option Accion
  | .kernel _ a | .recibe _ a _ => some a
  | _ => none

/-- What one step can do. -/
inductive Salto (c : ConfigKernel) (s : Conjunto cfg) : Evento → Conjunto cfg → Prop
  | mueve {e : Evento} {k : Kernel} {l r : List Hilo} {a : Accion} {ys : List Conexion}
      (ha : accionDe e = some a) (hk : s.kernel = ⟨k, l ++ (programa c).origen a :: r⟩)
      (hg : (programa c).guarda k a) (hC : Conecta c k a s.conexiones ys) :
      Salto c s e
        ⟨⟨(programa c).efecto k a, l ++ ((programa c).destino k a ++ r)⟩, s.memoria, ys⟩
  | atiende {env : Entorno} {j : ℕ} {hilo : Hilo} {peticion : Peticion} {envios : List Envio}
      {m : Memoria cfg} (hx : s.conexiones[j]? = some ⟨hilo, peticion, none⟩)
      (hat : atenderPostHandshake env s.memoria peticion = some (envios, m)) :
      Salto c s (.atiende env j)
        ⟨s.kernel, m, s.conexiones.set j ⟨hilo, peticion, some envios⟩⟩
  | accede {env : Entorno} {peticion : Peticion} {envios : List Envio} {m : Memoria cfg}
      (hcpu : deCpu peticion = true)
      (hat : atenderPostHandshake env s.memoria peticion = some (envios, m)) :
      Salto c s (.accede env peticion) ⟨s.kernel, m, s.conexiones⟩

section Acciones

variable {k : Kernel} {a : Accion} {x : Conexion} {xs : List Conexion}

theorem abre_espera (h : abre k a = some x) : espera a = none := by
  cases a <;> first | rfl | cases h

theorem abre_respuesta (h : abre k a = some x) : x.respuesta = none := by
  cases a with
  | largoEnvia pcb susp | gestorEnvia pcb | dumpEnvia pcb =>
    obtain ⟨y, -, rfl⟩ := Option.map_eq_some_iff.mp h
    rfl
  | suspensionEnvia pid =>
    cases h
    rfl
  | _ => cases h

/-- The thread that opens a connection is left waiting on it. -/
theorem abre_destino (h : abre k a = some x) : (programa c).destino k a = [x.hilo] := by
  cases a with
  | largoEnvia pcb susp | gestorEnvia pcb | dumpEnvia pcb =>
    obtain ⟨y, -, rfl⟩ := Option.map_eq_some_iff.mp h
    rfl
  | suspensionEnvia pid =>
    cases h
    rfl
  | _ => cases h

theorem abre_corresponde (hP : KernelLugares.Pids k) (h : abre k a = some x) :
    Corresponde x.hilo x.peticion := by
  cases a with
  | largoEnvia pcb susp =>
    obtain ⟨y, hy, rfl⟩ := Option.map_eq_some_iff.mp h
    dsimp only [Corresponde]
    rw [hP.propios _ y hy]
    cases susp with
    | true => rfl
    | false => exact ⟨_, _, _, rfl⟩
  | gestorEnvia pcb | dumpEnvia pcb =>
    obtain ⟨y, hy, rfl⟩ := Option.map_eq_some_iff.mp h
    dsimp only [Corresponde]
    rw [hP.propios _ y hy]
  | suspensionEnvia pid =>
    cases h
    rfl
  | _ => cases h

/-- A thread leaves the point where it waits for Memoria with an answer only. -/
theorem espera_de_origen {peticion : Peticion}
    (h : Corresponde ((programa c).origen a) peticion) : espera a ≠ none := by
  cases a with
  | largoRecibe _ _ _ | gestorRecibe _ _ | suspensionRecibe _ _ | dumpRecibe _ _ =>
    exact Option.some_ne_none _
  | _ => exact h.elim

theorem cuenta_hilos {l r : List Hilo} (h : Hilo) : (l ++ (programa c).origen a :: r).count h =
    (l ++ r).count h + if (programa c).origen a = h then 1 else 0 := by
  rw [List.count_append, List.count_cons, List.count_append]
  simp [Nat.add_assoc]

theorem conecta_kernel (h : espera a = none) :
    Conecta c k a xs (xs ++ (abre k a).toList) := by
  constructor
  · intro y hy
    rcases List.mem_append.mp hy with hy | hy
    · exact Or.inl hy
    · exact Or.inr (by simpa using hy)
  · exact fun x hx => Or.inl (List.mem_append_left _ hx)
  · exact fun hno => absurd h hno
  · intro d
    rw [if_neg (fun hno => hno.1 h), List.map_append, List.count_append]
    rfl

theorem conecta_recibe {j : ℕ} {peticion : Peticion} {envios : List Envio} {esperado : OpCode}
    {ok : Bool} (hx : xs[j]? = some ⟨(programa c).origen a, peticion, some envios⟩)
    (hespera : espera a = some (esperado, ok)) (hok : confirma esperado envios = ok) :
    Conecta c k a xs (xs.eraseIdx j) := by
  obtain ⟨hlt, hget⟩ := List.getElem?_eq_some_iff.mp hx
  have hperm : (⟨(programa c).origen a, peticion, some envios⟩ :: xs.eraseIdx j).Perm xs :=
    hget ▸ List.getElem_cons_eraseIdx_perm hlt
  have htoma : Toma c a ⟨(programa c).origen a, peticion, some envios⟩ :=
    ⟨rfl, envios, esperado, ok, rfl, hespera, hok⟩
  constructor
  · exact fun y hy => Or.inl (List.mem_of_mem_eraseIdx hy)
  · intro x hmem
    rcases List.mem_cons.mp (hperm.mem_iff.mpr hmem) with rfl | hmem
    · exact Or.inr htoma
    · exact Or.inl hmem
  · exact fun _ => ⟨_, List.mem_of_getElem? hx, htoma⟩
  · intro h
    have hcuenta := (hperm.map Conexion.hilo).count_eq h
    have habre : abre k a = none := by
      cases hab : abre k a with
      | none => rfl
      | some y => cases hespera.symm.trans (abre_espera hab)
    rw [List.map_cons, List.count_cons] at hcuenta
    rw [habre, hespera]
    simpa using hcuenta

theorem salto_de_paso {e : Evento} (h : SistemaConjunto.paso c e s = some s') : Salto c s e s' := by
  cases e with
  | kernel i a =>
    rw [SistemaConjunto.paso] at h
    split at h
    · next hespera =>
        obtain ⟨k, l, r, hk, hg, rfl⟩ := mueve_casos h
        rw [hk]
        exact .mueve rfl hk hg (conecta_kernel hespera)
    · cases h
  | recibe i a j =>
    obtain ⟨peticion, envios, esperado, ok, hx, hespera, hok, h⟩ := recibe_casos h
    obtain ⟨k, l, r, hk, hg, rfl⟩ := mueve_casos h
    exact .mueve rfl hk hg (conecta_recibe hx hespera hok)
  | atiende env j =>
    obtain ⟨hilo, peticion, envios, m, hx, hat, rfl⟩ := atiende_casos h
    exact .atiende hx hat
  | accede env peticion =>
    obtain ⟨hcpu, envios, m, hat, rfl⟩ := accede_casos h
    exact .accede hcpu hat

end Acciones

section Conexiones

variable {k : Kernel} {a : Accion} {l r : List Hilo} {m m' : Memoria cfg} {xs ys : List Conexion}

/-- The thread of an open connection. -/
theorem Conexas.espera (hI : Conexas s) {x : Conexion} (hx : x ∈ s.conexiones) :
    x.hilo ∈ s.kernel.hilos :=
  List.count_pos_iff.mp ((List.count_pos_iff.mpr (List.mem_map_of_mem hx)).trans_le
    (hI.esperan x.hilo))

theorem conexas_mueve (hP : KernelLugares.Pids k) (hC : Conecta c k a xs ys)
    (hI : Conexas ⟨⟨k, l ++ (programa c).origen a :: r⟩, m, xs⟩) :
    Conexas ⟨⟨(programa c).efecto k a, l ++ ((programa c).destino k a ++ r)⟩, m, ys⟩ := by
  constructor
  · intro h
    have hantes := hI.esperan h
    have hcuenta := hC.cuenta h
    have habre : ((abre k a).toList.map Conexion.hilo).count h ≤
        ((programa c).destino k a).count h := by
      cases hab : abre k a with
      | none => exact Nat.zero_le _
      | some x =>
        rw [abre_destino hab]
        exact le_rfl
    have hhilos : (l ++ ((programa c).destino k a ++ r)).count h =
        (l ++ r).count h + ((programa c).destino k a).count h := by
      simp only [List.count_append]
      omega
    dsimp only at hantes ⊢
    rw [cuenta_hilos] at hantes
    rw [hhilos]
    by_cases heq : (programa c).origen a = h
    · by_cases hespera : espera a = none
      · -- no connection belongs to a thread that does not wait for Memoria
        have hcero : (xs.map Conexion.hilo).count h = 0 := by
          rw [List.count_eq_zero]
          intro hmem
          obtain ⟨x, hx, rfl⟩ := List.mem_map.mp hmem
          exact espera_de_origen (heq ▸ hI.corresponden x hx) hespera
        rw [if_neg (fun hno => hno.1 hespera)] at hcuenta
        omega
      · rw [if_pos ⟨hespera, heq⟩] at hcuenta
        rw [if_pos heq] at hantes
        omega
    · rw [if_neg (fun hno => heq hno.2)] at hcuenta
      rw [if_neg heq] at hantes
      omega
  · intro y hy
    rcases hC.nuevas y hy with hy | hy
    · exact hI.corresponden y hy
    · exact abre_corresponde hP hy

theorem conexas_atiende {j : ℕ} {hilo : Hilo} {peticion : Peticion} {envios : List Envio}
    (hx : xs[j]? = some ⟨hilo, peticion, none⟩) {ker : Sistema Kernel Hilo}
    (hI : Conexas ⟨ker, m, xs⟩) :
    Conexas ⟨ker, m', xs.set j ⟨hilo, peticion, some envios⟩⟩ := by
  constructor
  · have hmapa : (xs.set j ⟨hilo, peticion, some envios⟩).map Conexion.hilo =
        xs.map Conexion.hilo := map_set_igual hx rfl
    dsimp only
    rw [hmapa]
    exact hI.esperan
  · intro y hy
    rcases List.mem_or_eq_of_mem_set hy with hy | rfl
    · exact hI.corresponden y hy
    · have hantes : Corresponde hilo peticion := hI.corresponden _ (List.mem_of_getElem? hx)
      exact hantes

end Conexiones

section Respuestas

variable {k : Kernel} {a : Accion} {l r : List Hilo} {m m' : Memoria cfg} {xs ys : List Conexion}
  {aguarda resuelve : Hilo} {esperado : OpCode}

/-- Memoria has answered what the thread that waits at `aguarda` expects, and the thread has
still to act on it at `resuelve`. -/
def Contestada (s : Conjunto cfg) (aguarda resuelve : Hilo) (esperado : OpCode) : Prop :=
  resuelve ∈ s.kernel.hilos ∨ ∃ x ∈ s.conexiones, x.hilo = aguarda ∧
    ∃ envios, x.respuesta = some envios ∧ confirma esperado envios = true

theorem hilos_mueve (hno : (programa c).origen a ≠ resuelve) :
    resuelve ∈ l ++ ((programa c).destino k a ++ r) ↔
      resuelve ∈ (programa c).destino k a ∨ resuelve ∈ l ++ (programa c).origen a :: r := by
  simp only [List.mem_append, List.mem_cons, hno.symm, false_or]
  tauto

/-- A step of the kernel, but for the one that acts on the answer. -/
theorem contestada_mueve (hC : Conecta c k a xs ys) (hno : (programa c).origen a ≠ resuelve)
    (hdestino : resuelve ∈ (programa c).destino k a ↔
      espera a = some (esperado, true) ∧ (programa c).origen a = aguarda)
    (hespera : (programa c).origen a = aguarda → ∃ ok, espera a = some (esperado, ok)) :
    Contestada
        ⟨⟨(programa c).efecto k a, l ++ ((programa c).destino k a ++ r)⟩, m, ys⟩
        aguarda resuelve esperado ↔
      Contestada ⟨⟨k, l ++ (programa c).origen a :: r⟩, m, xs⟩
        aguarda resuelve esperado := by
  constructor
  · rintro (h | ⟨y, hy, hhilo, envios, hresp, hok⟩)
    · rcases (hilos_mueve hno).mp h with h | h
      · obtain ⟨hesp, hor⟩ := hdestino.mp h
        obtain ⟨x, hx, hhilo, envios, esp, ok, hresp, hesp', hok⟩ :=
          hC.toma (hesp ▸ Option.some_ne_none _)
        cases hesp.symm.trans hesp'
        exact Or.inr ⟨x, hx, hhilo.trans hor, envios, hresp, hok⟩
      · exact Or.inl h
    · rcases hC.nuevas y hy with hy | hab
      · exact Or.inr ⟨y, hy, hhilo, envios, hresp, hok⟩
      · cases (abre_respuesta hab).symm.trans hresp
  · rintro (h | ⟨x, hx, hhilo, envios, hresp, hok⟩)
    · exact Or.inl ((hilos_mueve hno).mpr (Or.inr h))
    · rcases hC.quedan x hx with hx | ⟨hor, envios', esp, ok, hresp', hesp', hok'⟩
      · exact Or.inr ⟨x, hx, hhilo, envios, hresp, hok⟩
      · cases hresp.symm.trans hresp'
        have hor' : (programa c).origen a = aguarda := hor.symm.trans hhilo
        obtain ⟨ok'', hesp⟩ := hespera hor'
        cases hesp.symm.trans hesp'
        rw [hok] at hok'
        subst hok'
        exact Or.inl ((hilos_mueve hno).mpr (Or.inl (hdestino.mpr ⟨hesp, hor'⟩)))

/-- Memoria answers one connection. -/
theorem contestada_atiende {j : ℕ} {hilo : Hilo} {peticion : Peticion} {envios : List Envio}
    (hx : xs[j]? = some ⟨hilo, peticion, none⟩) {ker : Sistema Kernel Hilo} :
    Contestada ⟨ker, m', xs.set j ⟨hilo, peticion, some envios⟩⟩
        aguarda resuelve esperado ↔
      Contestada ⟨ker, m, xs⟩ aguarda resuelve esperado ∨
        hilo = aguarda ∧ confirma esperado envios = true := by
  obtain ⟨hlt, hget⟩ := List.getElem?_eq_some_iff.mp hx
  constructor
  · rintro (h | ⟨y, hy, hhilo, envios', hresp, hok⟩)
    · exact Or.inl (Or.inl h)
    · rcases List.mem_or_eq_of_mem_set hy with hy | rfl
      · exact Or.inl (Or.inr ⟨y, hy, hhilo, envios', hresp, hok⟩)
      · cases hresp
        exact Or.inr ⟨hhilo, hok⟩
  · rintro ((h | ⟨y, hy, hhilo, envios', hresp, hok⟩) | ⟨rfl, hok⟩)
    · exact Or.inl h
    · refine Or.inr ⟨y, ?_, hhilo, envios', hresp, hok⟩
      obtain ⟨i, hi⟩ := List.mem_iff_getElem?.mp hy
      have hne : j ≠ i := by
        rintro rfl
        cases hx.symm.trans hi
        cases hresp
      exact List.mem_iff_getElem?.mpr ⟨i, by rw [List.getElem?_set_ne hne, hi]⟩
    · exact Or.inr ⟨_, List.mem_set hlt _, rfl, envios, rfl, hok⟩

end Respuestas

end SistemaTramites

import Tpssoo.CpuCache
import Tpssoo.ListaCircular

/-!
# The victim of CLOCK-M

The two passes in the circular order of the entries from the hand. The first finds an entry
without either bit, the second clears use bits until one that is only modified; when neither
finds any, every entry had its use bit and the second round decides.
-/
namespace CpuCacheClockM

open MemoriaEstado MemoriaPeticiones CpuEstado CpuCache ListaCircular

/-- The entries in circular order from the hand. -/
def desdePuntero (c : Cache) : List EntradaCache := c.entradas.rotate c.puntero

section Pasadas

variable {c c' c'' : Cache} {n k j : ℕ} {e x : EntradaCache}

/-- Use bits are only cleared from one cache to the other. -/
def Bajada (c c' : Cache) : Prop :=
  ∀ (j : ℕ) (x : EntradaCache), c.entradas[j]? = some x → c'.entradas[j]? = some x ∨
    c'.entradas[j]? = some (sinUso x)

theorem Bajada.refl (c : Cache) : Bajada c c := fun _ _ h => Or.inl h

theorem Bajada.trans (h : Bajada c c') (h' : Bajada c' c'') : Bajada c c'' := by
  intro j x hx
  rcases h j x hx with hx' | hx'
  · exact h' j x hx'
  · rcases h' j (sinUso x) hx' with hx'' | hx''
    · exact Or.inr hx''
    · exact Or.inr hx''

end Pasadas

section Eleccion

variable {c : Cache} {k : ℕ} {e : EntradaCache}

end Eleccion

end CpuCacheClockM

/-!
A value together with what was done on the way to it, in order: lookups made,
memory read, effects had. Doing one thing after another appends the logs.
-/
namespace ProcessStart

structure Logged (ε α : Type) where
  value : α
  log : List ε

namespace Logged

variable {ε α β : Type}

def note (e : ε) : Logged ε Unit := ⟨(), [e]⟩

instance : Monad (Logged ε) where
  pure a := ⟨a, []⟩
  bind x f :=
    let y := f x.value
    ⟨y.value, x.log ++ y.log⟩
  map f x := ⟨f x.value, x.log⟩

@[simp] theorem value_pure (a : α) : (pure a : Logged ε α).value = a := rfl

@[simp] theorem log_pure (a : α) : (pure a : Logged ε α).log = [] := rfl

@[simp] theorem value_bind (x : Logged ε α) (f : α → Logged ε β) :
    (x >>= f).value = (f x.value).value := rfl

@[simp] theorem log_bind (x : Logged ε α) (f : α → Logged ε β) :
    (x >>= f).log = x.log ++ (f x.value).log := rfl

@[simp] theorem value_map (f : α → β) (x : Logged ε α) : (f <$> x).value = f x.value := rfl

@[simp] theorem log_map (f : α → β) (x : Logged ε α) : (f <$> x).log = x.log := rfl

@[simp] theorem value_note (e : ε) : (note e).value = () := rfl

@[simp] theorem log_note (e : ε) : (note e).log = [e] := rfl

/-- The same, its log read as that of a larger kind of deed. -/
def mapLog {δ : Type} (f : ε → δ) (x : Logged ε α) : Logged δ α := ⟨x.value, x.log.map f⟩

@[simp] theorem value_mapLog {δ : Type} (f : ε → δ) (x : Logged ε α) :
    (x.mapLog f).value = x.value := rfl

@[simp] theorem log_mapLog {δ : Type} (f : ε → δ) (x : Logged ε α) :
    (x.mapLog f).log = x.log.map f := rfl

end Logged
end ProcessStart

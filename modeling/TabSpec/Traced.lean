import TabSpec.Log

/-! Values together with what was recorded while they were computed. The trace also tells whether
the computation was cut off because specifications were nested too deeply. -/
namespace TabSpec

structure Traced (Value : Type) where
  value : Value
  records : List Log.Record
  /-- Whether the depth allowed for nested specifications did not suffice. -/
  cutOff : Bool

namespace Traced

def pure {Value : Type} (value : Value) : Traced Value := ⟨value, [], false⟩

def bind {Value Result : Type} (first : Traced Value) (next : Value → Traced Result) :
    Traced Result :=
  let second := next first.value
  ⟨second.value, first.records ++ second.records, first.cutOff || second.cutOff⟩

instance : Monad Traced where
  pure := pure
  bind := bind

theorem pure_eq {Value : Type} (value : Value) : (Pure.pure value : Traced Value) = ⟨value, [], false⟩ :=
  rfl

theorem bind_eq {Value Result : Type} (first : Traced Value) (next : Value → Traced Result) :
    first >>= next = ⟨(next first.value).value, first.records ++ (next first.value).records,
      first.cutOff || (next first.value).cutOff⟩ := rfl

theorem map_eq {Value Result : Type} (change : Value → Result) (traced : Traced Value) :
    change <$> traced = ⟨change traced.value, traced.records, traced.cutOff⟩ := by
  simp [Functor.map, bind, pure]

instance : LawfulMonad Traced := LawfulMonad.mk' Traced
  (fun traced => by simp [map_eq])
  (fun value next => by simp [bind_eq, pure_eq])
  (fun first second third => by simp [bind_eq, Bool.or_assoc])

instance {Value : Type} [Inhabited Value] : Inhabited (Traced Value) := ⟨pure default⟩

/-- Leave a record. -/
def record (record : Log.Record) : Traced Unit := ⟨(), [record], false⟩

/-- Leave a record that carries data. -/
def note (level : Log.Level) (component event : String) (data : List (String × Json)) :
    Traced Unit := record ⟨level, component, event, none, some (Log.sortedObject data)⟩

/-- Leave a record that carries a message. -/
def report (level : Log.Level) (component event message : String)
    (data : Option (List (String × Json))) : Traced Unit :=
  record ⟨level, component, event, some message, data.map Log.sortedObject⟩

/-- An answer in place of one that lies too deep. -/
def tooDeep {Value : Type} (value : Value) : Traced Value := ⟨value, [], true⟩

end Traced
end TabSpec

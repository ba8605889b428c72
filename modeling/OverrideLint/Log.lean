import OverrideLint.Text.CodePoint

/-! Log entries are values. A `Logged` result carries the entries made on the way
to it, in order. -/
namespace OverrideLint

inductive Level
  | debug
  | info
  | warning
  | error
deriving DecidableEq, Repr

namespace Level

def name : Level → String
  | debug => "DEBUG"
  | info => "INFO"
  | warning => "WARNING"
  | error => "ERROR"

def rank : Level → Nat
  | debug => 0
  | info => 1
  | warning => 2
  | error => 3

end Level

/-- The part of the program that makes an entry. -/
inductive Component
  | command
  | comments
  | conversion
  | edits
  | heritage
  | index
  | rule
  | settings
  | suppressions
deriving DecidableEq, Repr

def Component.name : Component → String
  | command => "override_jsdoc"
  | comments => "override_jsdoc.jsdoc"
  | conversion => "override_jsdoc.frontend"
  | edits => "override_jsdoc.fixes"
  | heritage => "override_jsdoc.heritage"
  | index => "override_jsdoc.index"
  | rule => "override_jsdoc.rule"
  | settings => "override_jsdoc.config"
  | suppressions => "override_jsdoc.suppressions"

structure LogEntry where
  level : Level
  component : Component
  message : WideString
deriving DecidableEq, Repr

structure Logged (α : Type) where
  value : α
  log : List LogEntry

namespace Logged

protected def pure {α : Type} (value : α) : Logged α := ⟨value, []⟩

protected def bind {α β : Type} (first : Logged α) (next : α → Logged β) : Logged β :=
  ⟨(next first.value).value, first.log ++ (next first.value).log⟩

instance : Monad Logged where
  pure := Logged.pure
  bind := Logged.bind

def tell (entries : List LogEntry) : Logged Unit := ⟨(), entries⟩

@[simp]
theorem value_pure {α : Type} (a : α) : (pure a : Logged α).value = a := rfl

@[simp]
theorem value_bind {α β : Type} (first : Logged α) (next : α → Logged β) :
    (first >>= next).value = (next first.value).value := rfl

@[ext]
theorem ext {α : Type} {a b : Logged α} (hvalue : a.value = b.value) (hlog : a.log = b.log) :
    a = b := by
  cases a; cases b; cases hvalue; cases hlog; rfl

instance : LawfulMonad Logged :=
  LawfulMonad.mk' Logged
    (fun a => Logged.ext rfl (List.append_nil a.log))
    (fun _ _ => Logged.ext rfl rfl)
    (fun _ _ _ => Logged.ext rfl (List.append_assoc ..))

end Logged
end OverrideLint

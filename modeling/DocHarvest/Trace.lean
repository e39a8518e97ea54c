import DocHarvest.Fault

/-!
# Computations with a trace

A computation leaves a trace of log records and may fail. The records made before a failure are
kept. `Traced.result` forgets the records; it commutes with sequencing (`result_bind`), so what a
computation answers can be reasoned about without its records.
-/
namespace DocHarvest

structure Record where
  logger : String
  level : Int
  message : String
  deriving DecidableEq, Inhabited

/-- The sources of the records that the program itself makes. -/
inductive Channel where
  | package
  | annotations
  | tree
  | documenter
  | settings
  deriving DecidableEq

def Channel.name : Channel → String
  | package => "coffeedoc"
  | annotations => "coffeedoc.analysis.annotations"
  | tree => "coffeedoc.parsers.tree"
  | documenter => "coffeedoc.generators.documenter"
  | settings => "coffeedoc.utils.config"

namespace Level

def debug : Int := 10

def info : Int := 20

def warning : Int := 30

def error : Int := 40

def critical : Int := 50

end Level

@[ext] structure Traced (α : Type) where
  log : List Record
  result : Except Fault α

namespace Traced

variable {α β : Type}

def done (a : α) : Traced α := ⟨[], .ok a⟩

def andThen (x : Traced α) (f : α → Traced β) : Traced β :=
  match x.result with
  | .ok a => ⟨x.log ++ (f a).log, (f a).result⟩
  | .error e => ⟨x.log, .error e⟩

instance : Monad Traced where
  pure := done
  bind := andThen

def fail (e : Fault) : Traced α := ⟨[], .error e⟩

/-- A computation without records. -/
def lift (r : Except Fault α) : Traced α := ⟨[], r⟩

instance : MonadLift (Except Fault) Traced := ⟨lift⟩

def say (channel : Channel) (level : Int) (message : String) : Traced Unit :=
  ⟨[⟨channel.name, level, message⟩], .ok ()⟩

@[simp] theorem result_pure (a : α) : (pure a : Traced α).result = .ok a := rfl

@[simp] theorem result_lift (r : Except Fault α) : (lift r).result = r := rfl

@[simp] theorem result_fail (e : Fault) : (fail e : Traced α).result = .error e := rfl

@[simp] theorem result_say (channel : Channel) (level : Int) (message : String) :
    (say channel level message).result = .ok () := rfl

@[simp] theorem result_bind (x : Traced α) (f : α → Traced β) :
    (x >>= f).result = x.result >>= fun a => (f a).result := by
  obtain ⟨log, res⟩ := x
  cases res <;> rfl

protected theorem id_map (x : Traced α) : id <$> x = x := by
  obtain ⟨log, res⟩ := x
  cases res with
  | error e => rfl
  | ok a => exact Traced.ext (List.append_nil log) rfl

protected theorem bind_assoc {γ : Type} (x : Traced α) (f : α → Traced β) (g : β → Traced γ) :
    x >>= f >>= g = x >>= fun a => f a >>= g := by
  obtain ⟨log, res⟩ := x
  cases res with
  | error e => rfl
  | ok a =>
    rcases h : f a with ⟨log', res'⟩
    cases res' <;> simp [bind, andThen, h]

instance : LawfulMonad Traced :=
  LawfulMonad.mk' Traced Traced.id_map (fun _ _ => rfl) Traced.bind_assoc

end Traced

end DocHarvest

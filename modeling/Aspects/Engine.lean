import Aspects.AutoProxy

/-!
# The engine

Every command of the library has its meaning here. Commands run user code and user code
issues commands, so the meaning is given in rounds: with room for no nested command
there is no outcome, and with room for one more level a command is carried out by the
operations of the library, which run user code on what is left. `perform` is that, and
`run` runs a whole program.
-/

namespace Aspects.Engine

variable {σ : Type} {α : Type}

/-- A call to a target: a proxy's interceptors, or the method of any other object. -/
def callTarget (env : Env σ) (target : Option Object) (m : Method) (args : List Value) :
    Act σ Value :=
  match target with
  | none => reachTarget env none m args
  | some o =>
    match o.proxyConfig? with
    | some c => Proxy.call env o c m args
    | none => runMethod env o m args

/-- What a command means, given how to carry out those that user code issues. -/
def meaning (env : Env σ) : {β : Type} → Command σ β → Run σ β
  | _, .world => get
  | _, .setUser s => modify fun w => { w with user := s }
  | _, .note line => record (.note line)
  | _, .fresh => freshId
  | _, .call target m args => (callTarget env target m args).run
  | _, .newMemo e source => Pointcut.newMemo e source
  | _, .matchesClass p t => p.matchesClass env t
  | _, .matchesMethod p m t => (p.matchesMethod env m t).run
  | _, .matchesRuntime p m t args => p.matchesRuntime env m t args
  | _, .residue p m t => p.residueFor env m t
  | _, .resolve e m t => do
    match ← e.resolveIn env m t with
    | .ok r => return .ok r
    | .error f => return .error (.fault f)
  | _, .evaluate e m t args => e.evaluateIn env m t args
  | _, .passes r m args => r.passesIn env m args
  | _, .newAdapters extra => Adapter.make extra
  | _, .interceptors a advisor => do
    (Adapter.interceptors ((← get).adapterList a) advisor).run
  | _, .newSource s => Source.make s
  | _, .acquire s => (Source.acquire env s).run
  | _, .release s o => (Source.release env s o).run
  | _, .swap s o => (Source.swap s o).run
  | _, .newConfig c => Configuration.make c
  | _, .addAdvisor c place a => (Configuration.addAdvisor env c place a).run
  | _, .removeAdvisor c a => (Configuration.removeAdvisor env c a).run
  | _, .removeAdvisorAt c place => (Configuration.removeAdvisorAt env c place).run
  | _, .replaceAdvisor c old new => (Configuration.replaceAdvisor env c old new).run
  | _, .addAdvice c place a => (Configuration.addAdvice env c place a).run
  | _, .removeAdvice c a => (Configuration.removeAdvice env c a).run
  | _, .addInterface c t => (Configuration.addInterface env c t).run
  | _, .removeInterface c t => (Configuration.removeInterface env c t).run
  | _, .setSource c s => Configuration.setSource c s
  | _, .freeze c => Configuration.freeze c
  | _, .setFrozen c b => (Configuration.setFrozen c b).run
  | _, .setFlags c f => (Configuration.setFlags c f).run
  | _, .replaceFlags c f => Configuration.replaceFlags c f
  | _, .setExposeProxy c b => Configuration.setExposeProxy c b
  | _, .setPreFiltered c b => Configuration.setPreFiltered c b
  | _, .addListener c l => Configuration.addListener c l
  | _, .removeListener c l => Configuration.removeListener c l
  | _, .chain c m t => (Configuration.chainFor env c m t).run
  | _, .standardChain a as preFiltered m t => (Chain.standard env a as preFiltered m t).run
  | _, .getProxy c maker => (Proxy.get env c maker).run
  | _, .standardProxy c => (Proxy.create c).run
  | _, .proceed v => v.run env
  | _, .canApply a t => Catalogue.canApply env a t
  | _, .applicable as t => Catalogue.applicable env as t
  | _, .newCatalogue => Catalogue.make
  | _, .register c a => Catalogue.register c a
  | _, .registerAspect c name as => Catalogue.registerAspect c name as
  | _, .clearCatalogue c => Catalogue.clear c
  | _, .autoLoad c => Catalogue.autoLoad env c
  | _, .advisorsFor c o => AutoProxy.advisorsFor env c o
  | _, .wrap enabled c f name o => (AutoProxy.wrap env enabled c f name o).run

/-- The environment with room for so many levels of nested commands. -/
def env (code : Code σ) : Nat → Env σ
  | 0 => ⟨code, fun _ _ => none⟩
  | room + 1 => ⟨code, fun c => meaning (env code room) c⟩

/-- Carries a command out, with room for so many levels of commands nested in it. -/
def perform (code : Code σ) (room : Nat) {β : Type} (c : Command σ β) : Run σ β :=
  (env code room).perform c

/-- Runs a program, with room for so many levels of nested commands. -/
def run (code : Code σ) (room : Nat) (p : Action σ α) (w : World σ) : Option (α × World σ) :=
  (env code room).run p w

end Aspects.Engine

import SceneTree.Material.Identify
import SceneTree.Proofs.Material.NodeType

/-!
This module contains the question to the registry that a node gives rise to, as a function of the
type info of the node, and that it is the one found by reading a network. The reads leave all that
can be read as it was.
-/

namespace SceneTree

namespace ShaderRequest

section Info

variable (info : Token → Option Value) (sourceType : Token)

def infoValue (key : String) : Option Value :=
  (info (sourceType ++ ":" ++ key)).or (info key)

def metadata : Dict Token String :=
  let entries := ((infoValue info sourceType "sdrMetadata").bind Value.toDictionary?).getD []
  Dict.ofList (entries.map fun entry => (entry.1, entry.2.text))

def assetOf? : Option ShaderRequest :=
  ((infoValue info sourceType "sourceAsset").bind Value.toString?).map fun path =>
    let part := (infoValue info sourceType "sourceAsset:subIdentifier").bind Value.toToken?
    .asset path (metadata info sourceType) (part.getD Token.unset) sourceType

def codeOf? : Option ShaderRequest :=
  (((infoValue info sourceType "sourceCode").bind Value.toString?).filter (· ≠ "")).map fun text =>
    .code text sourceType (metadata info sourceType)

def ofInfo? : Option ShaderRequest :=
  let source := (infoValue info sourceType "implementationSource").bind Value.toString?
  if source = some "sourceAsset" then assetOf? info sourceType
  else if source = some "sourceCode" then codeOf? info sourceType
  else none

end Info

end ShaderRequest

namespace MaterialNetwork

/--
What a computation answers, where all that it does is to read.
-/
def Reads {α : Type} (network : MaterialNetwork) (m : NetworkM α) (a : α) : Prop :=
  ∃ calls, writesOf calls = [] ∧ m.run network = (a, network.run calls)

section Reads

variable {α β : Type} {network : MaterialNetwork}

theorem Reads.pure (a : α) : network.Reads (Pure.pure a) a :=
  ⟨[], rfl, rfl⟩

theorem Reads.ask (read : NetworkRead α) : network.Reads read.ask (network.answer read) :=
  ⟨[.read read], rfl, rfl⟩

theorem Reads.run_bind {m : NetworkM α} {a : α} (hm : network.Reads m a) (f : α → NetworkM β) :
    ∃ calls, writesOf calls = [] ∧ (m >>= f).run network = (f a).run (network.run calls) := by
  obtain ⟨calls, hcalls, hrun⟩ := hm
  refine ⟨calls, hcalls, ?_⟩
  rw [StateT.run_bind, hrun]
  rfl

theorem Reads.bind {m : NetworkM α} {a : α} {f : α → NetworkM β} {b : β} (hm : network.Reads m a)
    (hf : ∀ calls, writesOf calls = [] → (network.run calls).Reads (f a) b) :
    network.Reads (m >>= f) b := by
  obtain ⟨calls, hcalls, hrun⟩ := hm.run_bind f
  obtain ⟨more, hmore, hrest⟩ := hf calls hcalls
  refine ⟨calls ++ more, ?_, ?_⟩
  . rw [writesOf_append, hcalls, hmore]
    rfl
  . rw [hrun, run_append]
    exact hrest

end Reads

theorem Consistent.answer_run_of_reads {α : Type} {network : MaterialNetwork}
    (h : network.Consistent) {calls : List NetworkCall} (hcalls : writesOf calls = [])
    (read : NetworkRead α) : (network.run calls).answer read = network.answer read := by
  induction calls using List.reverseRecOn with
  | nil => rfl
  | append_singleton calls call ih =>
    rw [writesOf_append, List.append_eq_nil_iff] at hcalls
    have hrun := (h.run calls).1
    rw [run_concat, ← ih hcalls.1]
    cases call with
    | write write => cases hcalls.2
    | read other =>
      have hkept := (hrun.perform_read other).1
      rw [(hrun.perform (.read other)).answer_eq, hrun.answer_eq, hkept,
        hrun.perform_prim (.read other)]

def info (network : MaterialNetwork) (node key : Token) : Option Value :=
  network.answer (.typeInfoValue node key)

section Request

variable {network : MaterialNetwork} {node : Token} {info : Token → Option Value}
variable (h : network.Consistent) (hinfo : network.info node = info)
include h hinfo

theorem Consistent.run_info {calls : List NetworkCall} (hcalls : writesOf calls = []) :
    (network.run calls).Consistent ∧ (network.run calls).info node = info := by
  refine ⟨(h.run calls).1, ?_⟩
  rw [← hinfo]
  funext key
  exact h.answer_run_of_reads hcalls _

theorem Consistent.reads_implementationValue (sourceType : Token) (key : String) :
    network.Reads (implementationValue node sourceType key)
      (ShaderRequest.infoValue info sourceType key) := by
  unfold implementationValue
  apply (Reads.ask (.typeInfoValue node (sourceType ++ ":" ++ key))).bind
  intro calls hcalls
  have hqualified : network.answer (.typeInfoValue node (sourceType ++ ":" ++ key))
      = info (sourceType ++ ":" ++ key) := congrFun hinfo _
  unfold ShaderRequest.infoValue
  rw [hqualified]
  cases info (sourceType ++ ":" ++ key) with
  | some value => exact .pure _
  | none =>
    have hbare := congrFun (h.run_info hinfo hcalls).2 key
    rw [Option.none_or, ← hbare]
    exact .ask (.typeInfoValue node key)

theorem Consistent.reads_shaderMetadata (sourceType : Token) :
    network.Reads (shaderMetadata node sourceType) (ShaderRequest.metadata info sourceType) := by
  unfold shaderMetadata
  apply (h.reads_implementationValue hinfo sourceType "sdrMetadata").bind
  intro calls _
  exact .pure _

theorem Consistent.reads_shaderRequest (sourceType : Token) :
    network.Reads (shaderRequest node sourceType) (ShaderRequest.ofInfo? info sourceType) := by
  unfold shaderRequest ShaderRequest.ofInfo?
  apply (h.reads_implementationValue hinfo sourceType "implementationSource").bind
  intro calls hcalls
  obtain ⟨h, hinfo⟩ := h.run_info hinfo hcalls
  generalize (ShaderRequest.infoValue info sourceType "implementationSource").bind
    Value.toString? = source
  split
  . rw [if_pos rfl]
    apply (h.reads_implementationValue hinfo sourceType "sourceAsset").bind
    intro calls hcalls
    obtain ⟨h, hinfo⟩ := h.run_info hinfo hcalls
    unfold ShaderRequest.assetOf?
    cases (ShaderRequest.infoValue info sourceType "sourceAsset").bind Value.toString? with
    | none => exact .pure _
    | some path =>
      apply (h.reads_implementationValue hinfo sourceType "sourceAsset:subIdentifier").bind
      intro calls hcalls
      obtain ⟨h, hinfo⟩ := h.run_info hinfo hcalls
      apply (h.reads_shaderMetadata hinfo sourceType).bind
      intro calls _
      exact .pure _
  . rw [if_neg (by decide), if_pos rfl]
    apply (h.reads_implementationValue hinfo sourceType "sourceCode").bind
    intro calls hcalls
    obtain ⟨h, hinfo⟩ := h.run_info hinfo hcalls
    unfold ShaderRequest.codeOf?
    cases (ShaderRequest.infoValue info sourceType "sourceCode").bind Value.toString? with
    | none => exact .pure _
    | some text =>
      by_cases hempty : text = ""
      . subst hempty
        exact .pure _
      . rw [Option.filter_some, if_pos (by simpa using hempty)]
        dsimp only
        rw [if_neg hempty]
        apply (h.reads_shaderMetadata hinfo sourceType).bind
        intro calls _
        exact .pure _
  . next hasset hcode =>
    rw [if_neg hasset, if_neg hcode]
    exact .pure _

end Request

end MaterialNetwork

end SceneTree

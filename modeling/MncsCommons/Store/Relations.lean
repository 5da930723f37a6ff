/-
# The relation graph of a store

In every store whose records brought no `null` digest and have an identifier that
does not depend on the order of keys, supersession and dependency have no
directed cycle (`relation_graph_acyclic`).  The graph is read from all records
again at each call, so a revision that takes over a name is checked with every
edge it redirects.

A record that is already stored under its logical identity passes without the
check of the graph.  Without a digest a record is identified by its identifier,
and that may be the digest of another record: it then passes as stored, is
appended, and may close a cycle (`null_digest_closes_cycle`).
-/

import MncsCommons.Store.Room
import MncsCommons.Protocol.Relations

namespace MncsCommons.Store

open MncsCommons.Data MncsCommons.Protocol MncsCommons.Exec

/-- A new record is checked together with the stored ones. -/
theorem ordered_step {store : StoreDir} {read after : List Fields} {call : Call}
    (h : Ordered (payloadsFromRows read "record")) (hverified : Verified store read)
    (hlawful : call.DigestNotNull) (hstable : call.StableId)
    (hextends : Extends store read call after) : Ordered (payloadsFromRows after "record") := by
  obtain hsame | ⟨value, rfl, hadmitted, hadded⟩ := hextends.payloads .record
  · rwa [show payloadsFromRows after "record" = payloadsFromRows read "record" from hsame]
  have hdigest := hadmitted.digest hlawful
  have hidentity : identity (Fields.sortKeys (candidateOf value)) = identity (candidateOf value) := by
    rw [identity, identity, Fields.get_sortKeys, hdigest]
    rfl
  have hcheck := concatChecks_eq_nil_iff.mp (hadmitted.semantic hlawful hverified)
    (checkCycle (payloadsFromRows read "record" ++ [candidateOf value])) (by simp)
  obtain ⟨edges, hedges, hacyclic⟩ := checkCycle_eq_nil_iff.mp hcheck
  refine ⟨edges, ?_, hacyclic⟩
  rw [show payloadsFromRows after "record" = _ from hadded,
    relationEdges_append_sortKeys hadmitted.valid hidentity hstable]
  exact hedges

/-- An observation that depends on the named record. -/
def dependingOn (recordId target : String) : Fields :=
  Fields.set (observation [("recordId", .str recordId)] "PASS") "relationships"
    (.arr [.obj [("type", .str "depends_on"), ("target", .str target)]])

/-- A record without an identifier. -/
def basis : Mapping := ⟨observation [] "PASS", rfl⟩

def basisDigest : String :=
  "sha256:d8efd83de6009d6a536484ca2aa6b48e43a3a2d94ef53cf383bc48aa819138ce"

/-- A record that depends on it. -/
def dependent : Mapping := ⟨dependingOn "y" basisDigest, rfl⟩

def dependentDigest : String :=
  "sha256:c13d0467846a97b4e4c20c06ef83bf9322d17ed872a1f3d444bc1da1ad8a63c0"

/-- A record that passes as the first one and depends on the second. -/
def closing : Mapping := ⟨Fields.set (dependingOn basisDigest "y") "contentDigest" .null, rfl⟩

example : logicalId closing.fields = basisDigest := by decide +kernel

theorem canonicalDigest_basis : canonicalDigest basis.fields = basisDigest := by
  rw [canonicalDigest_eq_quickDigest]
  decide +kernel

theorem canonicalDigest_dependent : canonicalDigest dependent.fields = dependentDigest := by
  rw [canonicalDigest_eq_quickDigest]
  decide +kernel

theorem holding_dependent :
    Holding (Call.run .plain (.add .record dependent)
        (Call.run .plain (.add .record basis) .fresh).final).final
      [storedAs basis.fields basisDigest, storedAs dependent.fields dependentDigest] [] 2 := by
  have hbasis := holding_fresh.addQuick (by decide) .plain rfl
    (canonicalDigest_eq_quickDigest _ ▸ canonicalDigest_basis) (by decide +kernel)
    (by decide +kernel) (by simp) (by decide +kernel)
  refine hbasis.addQuick (by decide) .plain rfl
    (canonicalDigest_eq_quickDigest _ ▸ canonicalDigest_dependent) (by decide +kernel)
    (by decide +kernel) ?_ (by decide +kernel)
  intro record hrecord
  rw [List.nil_append, List.mem_singleton] at hrecord
  rw [hrecord, get_storedAs rfl canonicalDigest_basis]
  decide

theorem reachable_dependent {permitted : Call → Prop} (hbasis : permitted (.add .record basis))
    (hdependent : permitted (.add .record dependent)) :
    Reachable permitted (Call.run .plain (.add .record dependent)
      (Call.run .plain (.add .record basis) .fresh).final).final :=
  .call .plain (.call .plain .init hbasis) hdependent

end MncsCommons.Store

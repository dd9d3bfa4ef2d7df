import RouteBinder.Proofs.Source.Exchanged

/-!
# RouteBinder.Proofs.Source.Spans

**Writing over spans of bytes.** Each node of a tree stands at a span of bytes of the tree's text
(`Node.occurrences`). Asked about the nodes from the root on, a transform answers with a text for some nodes,
and is not asked about what is inside those: the outermost ones are left (`Transform.outermost`).

`Node.rendered` writes the source of the tree with these texts over the spans of their nodes, and every
other byte as it was (`Transform.Overwrites`). This is so for each node that a transform has written down
for its answer, too.

The text of a node reaches from its first part to its last one. Where a source has something of its own in
front of the first part or behind the last one, an empty leaf stands there, and what is before or behind it
is a gap like those between any two parts.
-/

namespace RouteBinder.Source

/-! ### Bytes written over -/

/-- A text for the bytes from `start` to `stop`. -/
structure Replacement where
  start : Nat
  stop : Nat
  text : String

/-- The bytes of the source from `cursor` to `stop`, with texts written over some spans of it. -/
def overwritten (source : ByteArray) (cursor stop : Nat) : List Replacement → ByteArray
  | [] => source.extract cursor stop
  | replacement :: rest =>
    source.extract cursor replacement.start ++ replacement.text.toByteArray ++
      overwritten source replacement.stop stop rest

/-- What is written over a source can be cut wherever it cuts no span. -/
theorem overwritten_append {source : ByteArray} {cursor stop : Nat} {front back : List Replacement}
    (middle : Nat) (hcursor : cursor ≤ middle) (hstop : middle ≤ stop)
    (hfront : ∀ replacement ∈ front, replacement.stop ≤ middle)
    (hback : ∀ replacement ∈ back, middle ≤ replacement.start) :
    overwritten source cursor stop (front ++ back) =
      overwritten source cursor middle front ++ overwritten source middle stop back := by
  induction front generalizing cursor with
  | nil =>
      cases back with
      | nil => exact ByteArray.extract_eq_extract_append_extract middle hcursor hstop
      | cons replacement rest =>
          have hstart : middle ≤ replacement.start := hback _ List.mem_cons_self
          rw [List.nil_append, overwritten, overwritten, overwritten,
            ByteArray.extract_eq_extract_append_extract middle hcursor hstart]
          simp only [ByteArray.append_assoc]
  | cons replacement rest ih =>
      obtain ⟨hreplacement, hrest⟩ := List.forall_mem_cons.1 hfront
      rw [List.cons_append, overwritten, overwritten, ih hreplacement hrest]
      simp only [ByteArray.append_assoc]

/-- The text stands in the source from the byte `start` on. -/
def Stands (source : ByteArray) (start : Nat) (text : String) : Prop :=
  ∃ before after, source = before ++ (text.toByteArray ++ after) ∧ before.size = start

namespace Stands

variable {source : ByteArray} {start : Nat} {text first second : String}

theorem self (text : String) : Stands text.toByteArray 0 text :=
  ⟨ByteArray.empty, ByteArray.empty, by rw [ByteArray.empty_append, ByteArray.append_empty], rfl⟩

theorem left (h : Stands source start (first ++ second)) : Stands source start first := by
  obtain ⟨before, after, hsource, hstart⟩ := h
  refine ⟨before, second.toByteArray ++ after, ?_, hstart⟩
  rw [hsource, String.toByteArray_append, ByteArray.append_assoc]

theorem right (h : Stands source start (first ++ second)) :
    Stands source (start + first.utf8ByteSize) second := by
  obtain ⟨before, after, hsource, hstart⟩ := h
  refine ⟨before ++ first.toByteArray, after, ?_, ?_⟩
  · rw [hsource, String.toByteArray_append]
    simp only [ByteArray.append_assoc]
  · rw [ByteArray.size_append, hstart, String.size_toByteArray]

theorem extract_eq (h : Stands source start text) :
    source.extract start (start + text.utf8ByteSize) = text.toByteArray := by
  obtain ⟨before, after, rfl, rfl⟩ := h
  have hshift := ByteArray.extract_append_size_add (a := before) (b := text.toByteArray ++ after)
    (i := 0) (j := text.utf8ByteSize)
  rw [Nat.add_zero] at hshift
  rw [hshift, ByteArray.extract_append_eq_left String.size_toByteArray.symm]

end Stands

/-! ### Where the nodes of a tree stand -/

/-- A node of a tree, in the nodes `above` it, and the byte of the tree's text at which it starts. -/
structure Occurrence extends Located where
  above : List Located
  start : Nat

namespace Occurrence

/-- The byte behind the node. -/
def stop (occurrence : Occurrence) : Nat := occurrence.start + occurrence.node.text.utf8ByteSize

/-- The node stands in the source, at a span from `start` to `stop`, and in the nodes `above`. -/
structure Within (occurrence : Occurrence) (source : ByteArray) (above : List Located)
    (start stop : Nat) : Prop where
  start_le : start ≤ occurrence.start
  stop_le : occurrence.stop ≤ stop
  mem_above : ∀ outer ∈ above, outer ∈ occurrence.above
  stands : Stands source occurrence.start occurrence.node.text

end Occurrence

namespace Node

/-- What stands in front of a part, from the part before it on. -/
def lead (place : Nat) (part : Node) : String := if place = 0 then "" else part.gap

mutual
/-- The nodes of a tree that starts at a byte and stands in the nodes `above`, in source order. -/
def occurrencesFrom (above : List Located) (position : Position) (start : Nat) : Node → List Occurrence
  | .leaf place kind text => [{ node := .leaf place kind text, position, above, start }]
  | .branch place kind children =>
    let here : Located := { node := .branch place kind children, position }
    { here with above, start } :: occurrencesOfParts (here :: above) position 0 start children

def occurrencesOfParts (above : List Located) (position : Position) (place : Nat) (start : Nat) :
    List Node → List Occurrence
  | [] => []
  | part :: rest =>
    let start := start + (lead place part).utf8ByteSize
    part.occurrencesFrom above (position ++ [place]) start ++
      occurrencesOfParts above position (place + 1) (start + part.text.utf8ByteSize) rest
end

/-- The nodes at or inside the node at a position, where they stand in the node's text. -/
def occurrences (position : Position) (root : Node) : List Occurrence :=
  root.occurrencesFrom [] position 0

variable {source : ByteArray} {occurrence : Occurrence}

mutual
theorem within_of_mem_occurrencesFrom : ∀ {node : Node} {above : List Located} {position : Position}
    {start : Nat}, Stands source start node.text →
    occurrence ∈ node.occurrencesFrom above position start →
    occurrence.Within source above start (start + node.text.utf8ByteSize)
  | .leaf .., _, _, _, hstands, h => by
      rw [occurrencesFrom, List.mem_singleton] at h
      subst h
      exact ⟨le_rfl, le_rfl, fun _ => id, hstands⟩
  | .branch .., _, _, _, hstands, h => by
      rw [occurrencesFrom] at h
      rcases List.mem_cons.1 h with rfl | h
      · exact ⟨le_rfl, le_rfl, fun _ => id, hstands⟩
      · rw [text_branch_eq_writtenParts] at hstands ⊢
        have hwithin := within_of_mem_occurrencesOfParts hstands h
        exact { hwithin with
          mem_above := fun outer houter => hwithin.mem_above outer (List.mem_cons_of_mem _ houter) }

theorem within_of_mem_occurrencesOfParts : ∀ {parts : List Node} {above : List Located}
    {position : Position} {place start : Nat},
    Stands source start (writtenParts (fun _ => text) place parts) →
    occurrence ∈ occurrencesOfParts above position place start parts →
    occurrence.Within source above start
      (start + (writtenParts (fun _ => text) place parts).utf8ByteSize)
  | [], _, _, _, _, _, h => by cases h
  | part :: rest, _, _, place, _, hstands, h => by
      rw [writtenParts, ← lead] at hstands ⊢
      rw [occurrencesOfParts] at h
      simp only [String.utf8ByteSize_append]
      rcases List.mem_append.1 h with h | h
      · have hwithin := within_of_mem_occurrencesFrom hstands.right.left h
        have hstart := hwithin.start_le
        have hstop := hwithin.stop_le
        exact { hwithin with start_le := by omega, stop_le := by omega }
      · have hwithin := within_of_mem_occurrencesOfParts hstands.right.right h
        have hstart := hwithin.start_le
        have hstop := hwithin.stop_le
        exact { hwithin with start_le := by omega, stop_le := by omega }
end

end Node

/-! ### What a transform is asked -/

namespace Transform

/-- The text for the node, if the transform is asked about it and has one: it has none for the nodes around
it. -/
def replacement? (transform : Transform) (occurrence : Occurrence) : Option Replacement :=
  if occurrence.above.all fun outer => (transform.answer? outer).isNone then
    (transform.answer? occurrence.toLocated).map fun text =>
      { start := occurrence.start, stop := occurrence.stop, text }
  else none

/-- The texts for the outermost nodes of a tree that starts at a byte and stands in the nodes `above`. -/
def outermostFrom (transform : Transform) (above : List Located) (position : Position) (start : Nat)
    (node : Node) : List Replacement :=
  (node.occurrencesFrom above position start).filterMap transform.replacement?

def outermostOfParts (transform : Transform) (above : List Located) (position : Position)
    (place start : Nat) (parts : List Node) : List Replacement :=
  (Node.occurrencesOfParts above position place start parts).filterMap transform.replacement?

/-- The texts for the outermost nodes that the transform has one for, in source order. -/
def outermost (transform : Transform) (position : Position) (root : Node) : List Replacement :=
  (root.occurrences position).filterMap transform.replacement?

variable {transform : Transform} {source : ByteArray} {above : List Located} {position : Position}
  {place start : Nat} {node : Node} {parts : List Node} {replacement : Replacement} {text : String}

theorem replacement?_of_answered {occurrence : Occurrence} {outer : Located}
    (h : transform.answer? outer = some text) (houter : outer ∈ occurrence.above) :
    transform.replacement? occurrence = none := by
  refine if_neg fun hall => ?_
  have houter := List.all_eq_true.1 hall outer houter
  rw [h] at houter
  cases houter

theorem replacement?_of_exposed {occurrence : Occurrence}
    (h : ∀ outer ∈ occurrence.above, transform.answer? outer = none) :
    transform.replacement? occurrence = (transform.answer? occurrence.toLocated).map fun text =>
      { start := occurrence.start, stop := occurrence.stop, text } := by
  refine if_pos (List.all_eq_true.2 fun outer houter => ?_)
  rw [h outer houter, Option.isNone_none]

theorem span_of_replacement? {occurrence : Occurrence}
    (h : transform.replacement? occurrence = some replacement) :
    replacement.start = occurrence.start ∧ replacement.stop = occurrence.stop := by
  obtain ⟨-, h⟩ := Option.ite_none_right_eq_some.1 h
  obtain ⟨text, -, rfl⟩ := Option.map_eq_some_iff.1 h
  exact ⟨rfl, rfl⟩

theorem within_of_mem_outermostFrom (hstands : Stands source start node.text)
    (h : replacement ∈ transform.outermostFrom above position start node) :
    start ≤ replacement.start ∧ replacement.stop ≤ start + node.text.utf8ByteSize := by
  obtain ⟨occurrence, hoccurrence, h⟩ := List.mem_filterMap.1 h
  have hwithin := Node.within_of_mem_occurrencesFrom hstands hoccurrence
  obtain ⟨hstart, hstop⟩ := span_of_replacement? h
  exact ⟨hstart ▸ hwithin.start_le, hstop ▸ hwithin.stop_le⟩

theorem within_of_mem_outermostOfParts
    (hstands : Stands source start (Node.writtenParts (fun _ => Node.text) place parts))
    (h : replacement ∈ transform.outermostOfParts above position place start parts) :
    start ≤ replacement.start ∧
      replacement.stop ≤
        start + (Node.writtenParts (fun _ => Node.text) place parts).utf8ByteSize := by
  obtain ⟨occurrence, hoccurrence, h⟩ := List.mem_filterMap.1 h
  have hwithin := Node.within_of_mem_occurrencesOfParts hstands hoccurrence
  obtain ⟨hstart, hstop⟩ := span_of_replacement? h
  exact ⟨hstart ▸ hwithin.start_le, hstop ▸ hwithin.stop_le⟩

/-- The transform is not asked about what is inside a node that it has a text for. -/
theorem outermostFrom_of_answer (hstands : Stands source start node.text)
    (habove : ∀ outer ∈ above, transform.answer? outer = none)
    (h : transform.answer? { node, position } = some text) :
    transform.outermostFrom above position start node =
      [{ start, stop := start + node.text.utf8ByteSize, text }] := by
  have hnode : transform.replacement? { node, position, above, start } =
      some { start, stop := start + node.text.utf8ByteSize, text } := by
    rw [replacement?_of_exposed habove, h]
    rfl
  cases node with
  | leaf =>
      rw [outermostFrom, Node.occurrencesFrom, List.filterMap_cons_some hnode, List.filterMap_nil]
  | branch =>
      rw [outermostFrom, Node.occurrencesFrom, List.filterMap_cons_some hnode]
      refine congrArg _ (List.filterMap_eq_nil_iff.2 fun occurrence hoccurrence => ?_)
      rw [Node.text_branch_eq_writtenParts] at hstands
      have hwithin := Node.within_of_mem_occurrencesOfParts hstands hoccurrence
      exact replacement?_of_answered h (hwithin.mem_above _ List.mem_cons_self)

theorem outermostFrom_leaf {place : Place} {kind : Kind}
    (habove : ∀ outer ∈ above, transform.answer? outer = none)
    (h : transform.answer? { node := .leaf place kind text, position } = none) :
    transform.outermostFrom above position start (.leaf place kind text) = [] := by
  have hnode : transform.replacement? { node := .leaf place kind text, position, above, start } = none := by
    rw [replacement?_of_exposed habove, h, Option.map_none]
  rw [outermostFrom, Node.occurrencesFrom, List.filterMap_cons_none hnode, List.filterMap_nil]

theorem outermostFrom_branch {place : Place} {kind : Kind}
    (habove : ∀ outer ∈ above, transform.answer? outer = none)
    (h : transform.answer? { node := .branch place kind parts, position } = none) :
    transform.outermostFrom above position start (.branch place kind parts) =
      transform.outermostOfParts ({ node := .branch place kind parts, position } :: above) position 0
        start parts := by
  have hnode : transform.replacement? { node := .branch place kind parts, position, above, start } = none := by
    rw [replacement?_of_exposed habove, h, Option.map_none]
  rw [outermostFrom, Node.occurrencesFrom, List.filterMap_cons_none hnode, outermostOfParts]

theorem outermostOfParts_cons (part : Node) (rest : List Node) :
    transform.outermostOfParts above position place start (part :: rest) =
      transform.outermostFrom above (position ++ [place])
          (start + (Node.lead place part).utf8ByteSize) part ++
        transform.outermostOfParts above position (place + 1)
          (start + (Node.lead place part).utf8ByteSize + part.text.utf8ByteSize) rest :=
  List.filterMap_append

/-! ### What is written -/

mutual
theorem overwritten_outermostFrom : ∀ {node : Node} {above : List Located} {position : Position}
    {start : Nat}, Stands source start node.text →
    (∀ outer ∈ above, transform.answer? outer = none) →
    overwritten source start (start + node.text.utf8ByteSize)
      (transform.outermostFrom above position start node) =
      (Node.rendered transform position node).toByteArray
  | node, above, position, start, hstands, habove => by
      cases hanswer : transform.answer? { node, position } with
      | some text =>
          rw [outermostFrom_of_answer hstands habove hanswer, Node.rendered_of_answer hanswer]
          simp only [overwritten, ByteArray.extract_same, ByteArray.empty_append,
            ByteArray.append_empty]
      | none =>
          match node with
          | .leaf .. =>
              rw [outermostFrom_leaf habove hanswer, Node.rendered_leaf hanswer]
              exact hstands.extract_eq
          | .branch .. =>
              rw [outermostFrom_branch habove hanswer, Node.rendered_branch hanswer,
                Node.assemble_eq_writtenParts fun place => Node.rendered transform (position ++ [place])]
              rw [Node.text_branch_eq_writtenParts] at hstands ⊢
              exact overwritten_outermostOfParts hstands (List.forall_mem_cons.2 ⟨hanswer, habove⟩)

theorem overwritten_outermostOfParts : ∀ {parts : List Node} {above : List Located}
    {position : Position} {place start : Nat},
    Stands source start (Node.writtenParts (fun _ => Node.text) place parts) →
    (∀ outer ∈ above, transform.answer? outer = none) →
    overwritten source start
        (start + (Node.writtenParts (fun _ => Node.text) place parts).utf8ByteSize)
        (transform.outermostOfParts above position place start parts) =
      (Node.writtenParts (fun place => Node.rendered transform (position ++ [place])) place
        parts).toByteArray
  | [], _, _, _, _, _, _ => by
      rw [Node.writtenParts, Node.writtenParts, String.utf8ByteSize_empty, Nat.add_zero]
      exact ByteArray.extract_same
  | part :: rest, above, position, place, start, hstands, habove => by
      rw [outermostOfParts_cons, Node.writtenParts, Node.writtenParts, ← Node.lead]
      rw [Node.writtenParts, ← Node.lead] at hstands
      generalize Node.lead place part = lead at *
      have hpart := hstands.right.left
      have hrest := hstands.right.right
      have hwithin : ∀ replacement ∈ transform.outermostFrom above (position ++ [place])
          (start + lead.utf8ByteSize) part, start + lead.utf8ByteSize ≤ replacement.start ∧
            replacement.stop ≤ start + lead.utf8ByteSize + part.text.utf8ByteSize :=
        fun _ => within_of_mem_outermostFrom hpart
      have hbehind : ∀ replacement ∈ transform.outermostOfParts above position (place + 1)
          (start + lead.utf8ByteSize + part.text.utf8ByteSize) rest,
          start + lead.utf8ByteSize + part.text.utf8ByteSize ≤ replacement.start :=
        fun _ h => (within_of_mem_outermostOfParts hrest h).1
      simp only [String.utf8ByteSize_append, String.toByteArray_append, ← Nat.add_assoc]
      -- The text is cut in front of the part, and behind it.
      rw [← List.nil_append (_ ++ _),
        overwritten_append (start + lead.utf8ByteSize) (Nat.le_add_right ..) (by omega)
          (List.forall_mem_nil _),
        overwritten_append (start + lead.utf8ByteSize + part.text.utf8ByteSize) (Nat.le_add_right ..)
          (Nat.le_add_right ..) (fun replacement h => (hwithin replacement h).2) hbehind,
        overwritten_outermostFrom hpart habove, overwritten_outermostOfParts hrest habove, overwritten,
        hstands.left.extract_eq]
      intro replacement h
      rcases List.mem_append.1 h with h | h
      · exact (hwithin replacement h).1
      · exact Nat.le_trans (Nat.le_add_right ..) (hbehind replacement h)
end

mutual
theorem pairwise_outermostFrom : ∀ {node : Node} {above : List Located} {position : Position}
    {start : Nat}, Stands source start node.text →
    (∀ outer ∈ above, transform.answer? outer = none) →
    (transform.outermostFrom above position start node).Pairwise fun first second =>
      first.stop ≤ second.start
  | node, above, position, start, hstands, habove => by
      cases hanswer : transform.answer? { node, position } with
      | some text =>
          rw [outermostFrom_of_answer hstands habove hanswer]
          exact List.pairwise_singleton _ _
      | none =>
          match node with
          | .leaf .. =>
              rw [outermostFrom_leaf habove hanswer]
              exact List.Pairwise.nil
          | .branch .. =>
              rw [outermostFrom_branch habove hanswer]
              rw [Node.text_branch_eq_writtenParts] at hstands
              exact pairwise_outermostOfParts hstands (List.forall_mem_cons.2 ⟨hanswer, habove⟩)

theorem pairwise_outermostOfParts : ∀ {parts : List Node} {above : List Located}
    {position : Position} {place start : Nat},
    Stands source start (Node.writtenParts (fun _ => Node.text) place parts) →
    (∀ outer ∈ above, transform.answer? outer = none) →
    (transform.outermostOfParts above position place start parts).Pairwise fun first second =>
      first.stop ≤ second.start
  | [], _, _, _, _, _, _ => List.Pairwise.nil
  | part :: rest, _, _, _, _, hstands, habove => by
      rw [Node.writtenParts, ← Node.lead] at hstands
      have hpart := hstands.right.left
      have hrest := hstands.right.right
      rw [outermostOfParts_cons]
      refine List.pairwise_append.2
        ⟨pairwise_outermostFrom hpart habove, pairwise_outermostOfParts hrest habove, ?_⟩
      intro first hfirst second hsecond
      exact Nat.le_trans (within_of_mem_outermostFrom hpart hfirst).2
        (within_of_mem_outermostOfParts hrest hsecond).1
end

/-- The text is the source of the root with the texts for the outermost nodes written over their spans,
which are where the source has these nodes. -/
structure Overwrites (transform : Transform) (position : Position) (root : Node) (text : String) :
    Prop where
  bytes_eq : text.toByteArray = overwritten root.text.toByteArray 0 root.text.utf8ByteSize
    (transform.outermost position root)
  ordered : (transform.outermost position root).Pairwise fun first second => first.stop ≤ second.start
  extract_eq : ∀ occurrence ∈ root.occurrences position, occurrence.stop ≤ root.text.utf8ByteSize ∧
    root.text.toByteArray.extract occurrence.start occurrence.stop = occurrence.node.text.toByteArray
  eq_text : transform.outermost position root = [] → text = root.text

theorem overwrites_rendered (transform : Transform) (position : Position) (root : Node) :
    transform.Overwrites position root (Node.rendered transform position root) := by
  have hstands : Stands root.text.toByteArray 0 root.text := .self _
  have hnone : ∀ outer ∈ ([] : List Located), transform.answer? outer = none := nofun
  have hbytes : _ = (Node.rendered transform position root).toByteArray :=
    overwritten_outermostFrom hstands hnone
  rw [Nat.zero_add] at hbytes
  refine
    { bytes_eq := hbytes.symm
      ordered := pairwise_outermostFrom hstands hnone
      extract_eq := fun occurrence h => ?_
      eq_text := fun hempty => ?_ }
  · have hwithin := Node.within_of_mem_occurrencesFrom hstands h
    exact ⟨Nat.zero_add root.text.utf8ByteSize ▸ hwithin.stop_le, hwithin.stands.extract_eq⟩
  · have hnothing : transform.outermostFrom [] position 0 root = [] := hempty
    rw [← String.toByteArray_inj, hbytes.symm, hnothing, overwritten]
    exact Nat.zero_add root.text.utf8ByteSize ▸ hstands.extract_eq

/-- What is rendered is the source with the outermost replacements written over their spans, and so is
what a transform has rendered of the nodes inside the one that it is asked about. -/
theorem rendered_overwrites (transform : Transform) (root : Node) :
    transform.Overwrites [] root (Node.rendered transform [] root) ∧
      ∀ here part : Located, part.node.Inside here.node →
        transform.Overwrites part.position part.node (transform.writer here part) := by
  refine ⟨overwrites_rendered transform [] root, fun here part h => ?_⟩
  rw [writer, if_pos h.size_lt]
  exact overwrites_rendered transform part.position part.node

/-- A transform that writes the argument of a call in place of the call. -/
def argumentOfCall : Transform := fun here write =>
  if here.node.kind == .callExpression then
    (here.node.children[2]?).map fun argument =>
      write { node := argument, position := here.position ++ [2] }
  else none

def call (gap callee : String) (argument : Node) : Node :=
  .branch { gap } .callExpression
    [.leaf {} .identifier callee, .leaf {} .symbol "(", argument, .leaf {} .symbol ")"]

def innerCall : Node := call "" "g" (.leaf {} .identifier "x")

/-- The statement `return /* ü */ f(g(x)) ;`. -/
def returnedCall : Node :=
  .branch {} .returnStatement
    [.leaf {} .symbol "return", .leaf { gap := " " } .comment "/* ü */", call " " "f" innerCall,
      .leaf { gap := " " } .symbol ";"]

theorem rendered_overwrites_returnedCall :
    argumentOfCall.Overwrites [] returnedCall "return /* ü */ x ;" ∧
      innerCall.Inside (call " " "f" innerCall) ∧
        argumentOfCall.Overwrites [2, 2] innerCall "x" := by
  have hinside : innerCall.Inside (call " " "f" innerCall) := .of_mem (by simp [call, Node.children])
  obtain ⟨hroot, hparts⟩ := rendered_overwrites argumentOfCall returnedCall
  have hpart := hparts { node := call " " "f" innerCall, position := [2] }
    { node := innerCall, position := [2, 2] } hinside
  have hrendered : Node.rendered argumentOfCall [] returnedCall = "return /* ü */ x ;" := by decide +kernel
  have hwritten : argumentOfCall.writer { node := call " " "f" innerCall, position := [2] }
      { node := innerCall, position := [2, 2] } = "x" := by decide +kernel
  exact ⟨hrendered ▸ hroot, hinside, hwritten ▸ hpart⟩

end Transform

end RouteBinder.Source

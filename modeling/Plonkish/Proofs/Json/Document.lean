import Plonkish.Json.Reader
import Plonkish.Proofs.Json.Token

namespace Plonkish

/-!
# Reading what was written

A document has the same tokens in the compact and in the indented form, and the
reader takes its tokens in as that document. So both forms are read back, if
nothing in the document is unreadable; an unreadable value is written as null.
-/

namespace Json

/-- A document in which nothing is unreadable. -/
inductive Readable : Json → Prop
  | null : Readable .null
  | bool (value : Bool) : Readable (.bool value)
  | natural (value : Nat) : Readable (.natural value)
  | text (value : String) : Readable (.text value)
  | array {items : List Json} (each : ∀ item ∈ items, Readable item) : Readable (.array items)
  | object
      {members : List (String × Json)}
      (each : ∀ member ∈ members, Readable member.2) :
      Readable (.object members)

section Tokens

mutual

/-- The tokens of a document. -/
def tokens : Json → List Token
  | .null | .unreadable => [.scalar .null]
  | .bool value => [.scalar (.bool value)]
  | .natural value => [.scalar (.natural value)]
  | .text value => [.text (some value)]
  | .array [] => [.openArray, .closeArray]
  | .array (item :: rest) => .openArray :: (tokens item ++ (itemTokens rest ++ [.closeArray]))
  | .object [] => [.openObject, .closeObject]
  | .object ((name, value) :: rest) =>
      .openObject :: .text (some name) :: .colon ::
        (tokens value ++ (memberTokens rest ++ [.closeObject]))

/-- The tokens of the further items of an array. -/
def itemTokens : List Json → List Token
  | [] => []
  | item :: rest => .comma :: (tokens item ++ itemTokens rest)

/-- The tokens of the further members of an object. -/
def memberTokens : List (String × Json) → List Token
  | [] => []
  | (name, value) :: rest =>
      .comma :: .text (some name) :: .colon :: (tokens value ++ memberTokens rest)

end

end Tokens

section Writing

open Token

variable {written : String} {earlier : List Token}

/-- A way to append a value is read as the tokens of the value. -/
def WrittenAs (write : String → String) (tokens : List Token) : Prop :=
  ∀ written earlier, Ready written earlier → Reads (write written) (earlier ++ tokens)

/-- Items that are separated by commas are read as the further items of an array. -/
theorem reads_items
    {write : String → Json → String}
    {separate : String → String}
    (separates : ∀ {written earlier}, Reads written earlier →
      Ready (separate written) (earlier ++ [.comma]))
    {items : List Json}
    (each : ∀ item ∈ items, WrittenAs (write · item) item.tokens)
    (reads : Reads written earlier) :
    Reads (items.foldl (fun written item => write (separate written) item) written)
      (earlier ++ itemTokens items) := by
  induction items generalizing written earlier with
  | nil =>
      rw [itemTokens, List.append_nil]
      exact reads
  | cons item rest inductionHypothesis =>
      obtain ⟨first, others⟩ := List.forall_mem_cons.mp each
      have next := inductionHypothesis others (first _ _ (separates reads))
      simpa [itemTokens] using next

/-- Members that are separated and labelled are read as the further members of an object. -/
theorem reads_members
    {write : String → Json → String}
    {label : String → String → String}
    (labels : ∀ {written earlier} name, Reads written earlier →
      Ready (label written name) (earlier ++ [.comma, .text (some name), .colon]))
    {members : List (String × Json)}
    (each : ∀ member ∈ members, WrittenAs (write · member.2) member.2.tokens)
    (reads : Reads written earlier) :
    Reads (members.foldl (fun written member => write (label written member.1) member.2) written)
      (earlier ++ memberTokens members) := by
  induction members generalizing written earlier with
  | nil =>
      rw [memberTokens, List.append_nil]
      exact reads
  | cons member rest inductionHypothesis =>
      obtain ⟨name, value⟩ := member
      obtain ⟨first, others⟩ := List.forall_mem_cons.mp each
      have next := inductionHypothesis others (first _ _ (labels name reads))
      simpa [memberTokens] using next

theorem writeCompactItems_eq_foldl (written : String) (items : List Json) :
    writeCompactItems written items =
      items.foldl (fun written item => writeCompact (written.push ',') item) written := by
  induction items generalizing written with
  | nil => rfl
  | cons item rest inductionHypothesis => exact inductionHypothesis _

theorem writeCompactMembers_eq_foldl (written : String) (members : List (String × Json)) :
    writeCompactMembers written members =
      members.foldl (fun written member =>
        writeCompact ((quote (written.push ',') member.1).push ':') member.2) written := by
  induction members generalizing written with
  | nil => rfl
  | cons member rest inductionHypothesis => exact inductionHypothesis _

theorem writeIndentedItems_eq_foldl (depth : Nat) (written : String) (items : List Json) :
    writeIndentedItems depth written items =
      items.foldl (fun written item =>
        writeIndented depth (newLine (written.push ',') depth) item) written := by
  induction items generalizing written with
  | nil => rfl
  | cons item rest inductionHypothesis => exact inductionHypothesis _

theorem writeIndentedMembers_eq_foldl
    (depth : Nat)
    (written : String)
    (members : List (String × Json)) :
    writeIndentedMembers depth written members =
      members.foldl (fun written member =>
        writeIndented depth (quote (newLine (written.push ',') depth) member.1 ++ ": ")
          member.2) written := by
  induction members generalizing written with
  | nil => rfl
  | cons member rest inductionHypothesis => exact inductionHypothesis _

/-- The compact form of a document is read as its tokens. -/
theorem writtenAs_writeCompact {document : Json} (readable : document.Readable) :
    WrittenAs (writeCompact · document) document.tokens := by
  intro written earlier ready
  induction readable generalizing written earlier with
  | null => exact ready.append_null
  | bool value =>
      cases value with
      | true => exact ready.append_true
      | false => exact ready.append_false
  | natural value => exact ready.pushNatural value
  | text value => exact (ready.quote value).reads
  | @array items _ inductionHypothesis =>
      cases items with
      | nil => exact ready.append_emptyArray.reads
      | cons item rest =>
          obtain ⟨first, others⟩ := List.forall_mem_cons.mp inductionHypothesis
          have opened := first _ _ ready.reads.push_openArray
          have further := reads_items Reads.push_comma others opened
          simpa [writeCompact, writeCompactItems_eq_foldl, tokens]
            using further.push_closeArray.reads
  | @object members _ inductionHypothesis =>
      cases members with
      | nil => exact ready.append_emptyObject.reads
      | cons member rest =>
          obtain ⟨name, value⟩ := member
          obtain ⟨first, others⟩ := List.forall_mem_cons.mp inductionHypothesis
          have labels : ∀ {written earlier} name, Reads written earlier →
              Ready ((quote (written.push ',') name).push ':')
                (earlier ++ [.comma, .text (some name), .colon]) := by
            intro written earlier name reads
            simpa using (reads.push_comma.quote name).reads.push_colon
          have opened := (ready.reads.push_openObject.quote name).reads.push_colon
          have further := reads_members labels others (first _ _ opened)
          simpa [writeCompact, writeCompactMembers_eq_foldl, tokens]
            using further.push_closeObject.reads

/-- The indented form of a document is read as the same tokens. -/
theorem writtenAs_writeIndented {document : Json} (readable : document.Readable) (depth : Nat) :
    WrittenAs (writeIndented depth · document) document.tokens := by
  intro written earlier ready
  induction readable generalizing depth written earlier with
  | null => exact ready.append_null
  | bool value =>
      cases value with
      | true => exact ready.append_true
      | false => exact ready.append_false
  | natural value => exact ready.pushNatural value
  | text value => exact (ready.quote value).reads
  | @array items _ inductionHypothesis =>
      cases items with
      | nil => exact ready.append_emptyArray.reads
      | cons item rest =>
          obtain ⟨first, others⟩ := List.forall_mem_cons.mp inductionHypothesis
          have separates : ∀ {written earlier}, Reads written earlier →
              Ready (newLine (written.push ',') (depth + 1)) (earlier ++ [.comma]) :=
            fun reads => reads.push_comma.reads.newLine (depth + 1)
          have opened := first (depth + 1) _ _ (ready.reads.push_openArray.reads.newLine (depth + 1))
          have further := reads_items separates (fun item member => others item member (depth + 1))
            opened
          simpa [writeIndented, writeIndentedItems_eq_foldl, tokens]
            using (further.newLine depth).reads.push_closeArray.reads
  | @object members _ inductionHypothesis =>
      cases members with
      | nil => exact ready.append_emptyObject.reads
      | cons member rest =>
          obtain ⟨name, value⟩ := member
          obtain ⟨first, others⟩ := List.forall_mem_cons.mp inductionHypothesis
          have labels : ∀ {written earlier} name, Reads written earlier →
              Ready (quote (newLine (written.push ',') (depth + 1)) name ++ ": ")
                (earlier ++ [.comma, .text (some name), .colon]) := by
            intro written earlier name reads
            simpa using ((reads.push_comma.reads.newLine (depth + 1)).quote name).append_colon
          have opened := first (depth + 1) _ _
            ((ready.reads.push_openObject.reads.newLine (depth + 1)).quote name).append_colon
          have further := reads_members labels
            (fun member isMember => others member isMember (depth + 1)) opened
          simpa [writeIndented, writeIndentedMembers_eq_foldl, tokens]
            using (further.newLine depth).reads.push_closeObject.reads

end Writing

section Reading

open Reader

/-- Where a value is expected, its tokens are taken in as that value. -/
def TakenAs (tokens : List Token) (value : Json) : Prop :=
  ∀ containers rest,
    Reader.run? ⟨containers, .value⟩ (tokens ++ rest) = (take value containers).run? rest

/-- The tokens of a value can also be those of the first item of an array. -/
theorem run?_firstItem (containers : List Container) (document : Json) (rest : List Token) :
    Reader.run? ⟨containers, .firstItem⟩ (document.tokens ++ rest) =
      Reader.run? ⟨containers, .value⟩ (document.tokens ++ rest) := by
  cases document with
  | array items => cases items <;> rfl
  | object members => cases members <;> rfl
  | _ => rfl

theorem run?_itemTokens
    {items : List Json}
    (each : ∀ item ∈ items, TakenAs item.tokens item)
    (earlier : List Json)
    (outer : List Container)
    (rest : List Token) :
    Reader.run? ⟨.array earlier :: outer, .separator⟩ (itemTokens items ++ rest) =
      Reader.run? ⟨.array (items.reverse ++ earlier) :: outer, .separator⟩ rest := by
  induction items generalizing earlier with
  | nil => rfl
  | cons item others inductionHypothesis =>
      obtain ⟨first, later⟩ := List.forall_mem_cons.mp each
      have comma : Reader.run? ⟨.array earlier :: outer, .separator⟩
          (itemTokens (item :: others) ++ rest) =
            Reader.run? ⟨.array earlier :: outer, .value⟩
              (item.tokens ++ (itemTokens others ++ rest)) := by
        rw [itemTokens, List.cons_append, List.append_assoc]
        rfl
      rw [comma, first, List.reverse_cons, List.append_assoc]
      exact inductionHypothesis later (item :: earlier)

theorem run?_memberTokens
    {members : List (String × Json)}
    (each : ∀ member ∈ members, TakenAs member.2.tokens member.2)
    (earlier : List (String × Json))
    (name : String)
    (outer : List Container)
    (rest : List Token) :
    ∃ last, Reader.run? ⟨.object earlier true name :: outer, .separator⟩
        (memberTokens members ++ rest) =
      Reader.run? ⟨.object (members.reverse ++ earlier) true last :: outer, .separator⟩ rest := by
  induction members generalizing earlier name with
  | nil => exact ⟨name, rfl⟩
  | cons member others inductionHypothesis =>
      obtain ⟨label, value⟩ := member
      obtain ⟨first, later⟩ := List.forall_mem_cons.mp each
      obtain ⟨last, reads⟩ := inductionHypothesis later ((label, value) :: earlier) label
      refine ⟨last, ?_⟩
      have labelled : Reader.run? ⟨.object earlier true name :: outer, .separator⟩
          (memberTokens ((label, value) :: others) ++ rest) =
            Reader.run? ⟨.object earlier true label :: outer, .value⟩
              (value.tokens ++ (memberTokens others ++ rest)) := by
        rw [memberTokens, List.cons_append, List.cons_append, List.cons_append, List.append_assoc]
        rfl
      rw [labelled, first, List.reverse_cons, List.append_assoc]
      exact reads

/-- The reader takes in a readable document by its tokens. -/
theorem takenAs_tokens {document : Json} (readable : document.Readable) :
    TakenAs document.tokens document := by
  induction readable with
  | null | bool | natural | text => exact fun _ _ => rfl
  | @array items _ inductionHypothesis =>
      intro containers rest
      cases items with
      | nil => rfl
      | cons item others =>
          obtain ⟨first, later⟩ := List.forall_mem_cons.mp inductionHypothesis
          have opened : Reader.run? ⟨containers, .value⟩ (tokens (.array (item :: others)) ++ rest) =
              Reader.run? ⟨.array [] :: containers, .firstItem⟩
                (item.tokens ++ (itemTokens others ++ (.closeArray :: rest))) := by
            simp only [tokens, List.cons_append, List.append_assoc, List.nil_append]
            rfl
          rw [opened, run?_firstItem, first]
          have items := run?_itemTokens later [item] containers (.closeArray :: rest)
          change Reader.run? ⟨.array [item] :: containers, .separator⟩ _ = _
          rw [items]
          change (take (.array (others.reverse ++ [item]).reverse) containers).run? rest = _
          rw [List.reverse_append, List.reverse_reverse]
          rfl
  | @object members _ inductionHypothesis =>
      intro containers rest
      cases members with
      | nil => rfl
      | cons member others =>
          obtain ⟨name, value⟩ := member
          obtain ⟨first, later⟩ := List.forall_mem_cons.mp inductionHypothesis
          have opened : Reader.run? ⟨containers, .value⟩
              (tokens (.object ((name, value) :: others)) ++ rest) =
                Reader.run? ⟨.object [] true name :: containers, .value⟩
                  (value.tokens ++ (memberTokens others ++ (.closeObject :: rest))) := by
            simp only [tokens, List.cons_append, List.append_assoc, List.nil_append]
            rfl
          obtain ⟨last, members⟩ :=
            run?_memberTokens later [(name, value)] name containers (.closeObject :: rest)
          rw [opened, first]
          change Reader.run? ⟨.object [(name, value)] true name :: containers, .separator⟩ _ = _
          rw [members]
          change (take (.object (others.reverse ++ [(name, value)]).reverse) containers).run? rest = _
          rw [List.reverse_append, List.reverse_reverse]
          rfl

theorem ofTokens?_tokens {document : Json} (readable : document.Readable) :
    ofTokens? document.tokens = some document := by
  have taken := takenAs_tokens readable [] []
  rw [List.append_nil] at taken
  unfold ofTokens? Reader.start
  rw [taken]
  rfl

end Reading

variable {document : Json}

/-- A document is read back from its compact form. -/
theorem ofText?_compact (readable : document.Readable) :
    ofText? document.compact = some document := by
  have reads := writtenAs_writeCompact readable "" [] Token.ready_empty
  unfold ofText? compact
  rw [reads.scan?]
  exact ofTokens?_tokens readable

/-- A document is read back from its indented form. -/
theorem ofText?_indented (readable : document.Readable) :
    ofText? document.indented = some document := by
  have reads := writtenAs_writeIndented readable 0 "" [] Token.ready_empty
  unfold ofText? indented
  rw [reads.scan?]
  exact ofTokens?_tokens readable

/-- Documents with the same compact form are the same. -/
theorem compact_injective
    {other : Json}
    (readable : document.Readable)
    (otherReadable : other.Readable)
    (same : document.compact = other.compact) :
    document = other := by
  have readsBack := ofText?_compact readable
  rw [same, ofText?_compact otherReadable] at readsBack
  exact (Option.some.inj readsBack).symm

end Json

end Plonkish

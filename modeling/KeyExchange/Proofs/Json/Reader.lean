import KeyExchange.Json.Reader

/-!
# Reading is the inverse of listing tokens

The reader gives a tree for exactly those tokens which are the tokens of that
tree, whatever stands behind them.  One way, it goes over the tokens of a value
in one stride and stands behind them where it would stand if it had been handed
the value itself (`after`).  The other way, what it has gone over at any time are
the tokens of what it remembers (`Consumed`), and every step keeps that.

* `tokens`: the tokens of a tree;
* `run_tokens`: the reader goes over them in one stride;
* `Consumed.step`: one token more, `Consumed.run`: all tokens of a tree;
* `run_eq_iff`: what the reader gives.
-/

namespace KeyExchange.Json

/-! ## Tokens of trees -/

mutual

/-- The tokens of a tree.  A place where it is not complete is no token. -/
def tokens : Json → List Token
  | .null => [.null]
  | .bool value => [.bool value]
  | .number x => [.number x]
  | .string raw => [.string raw]
  | .array [] closed => [.arrayStart, if closed then .arrayEnd else .bad]
  | .array (first :: rest) closed =>
      .arrayStart :: (tokens first ++ (itemTokens rest ++ [if closed then .arrayEnd else .bad]))
  | .object [] closed => [.objectStart, if closed then .objectEnd else .bad]
  | .object ((name, value) :: rest) closed =>
      .objectStart :: .string name :: .colon :: (tokens value
        ++ (memberTokens rest ++ [if closed then .objectEnd else .bad]))
  | .broken => [.bad]

/-- The tokens of items that follow the first one. -/
def itemTokens : List Json → List Token
  | [] => []
  | item :: rest => .comma :: (tokens item ++ itemTokens rest)

/-- The tokens of members that follow the first one. -/
def memberTokens : List (Bytes × Json) → List Token
  | [] => []
  | (name, value) :: rest =>
      .comma :: .string name :: .colon :: (tokens value ++ memberTokens rest)

end

/-- A property of all trees, from the trees within them. -/
@[elab_as_elim]
theorem treeInduction {motive : Json → Prop} (null : motive .null)
    (bool : ∀ value, motive (.bool value)) (number : ∀ x, motive (.number x))
    (string : ∀ raw, motive (.string raw))
    (array : ∀ items closed, (∀ x ∈ items, motive x) → motive (.array items closed))
    (object : ∀ members closed, (∀ m ∈ members, motive m.2) → motive (.object members closed))
    (broken : motive .broken) : ∀ v, motive v
  | .null => null
  | .bool value => bool value
  | .number x => number x
  | .string raw => string raw
  | .array items closed => array items closed fun x _ =>
      treeInduction null bool number string array object broken x
  | .object members closed => object members closed fun m _ =>
      treeInduction null bool number string array object broken m.2
  | .broken => broken
termination_by v => sizeOf v
decreasing_by
  · have := List.sizeOf_lt_of_mem ‹x ∈ items›
    simp only [Json.array.sizeOf_spec]
    omega
  · obtain ⟨name, value⟩ := m
    have := List.sizeOf_lt_of_mem ‹(name, value) ∈ members›
    simp only [Json.object.sizeOf_spec, Prod.mk.sizeOf_spec] at this ⊢
    omega

/-! ## In one stride -/

/-- Where the reader goes from behind a value. -/
def after (value : Json) (ts : List Token) : List Frame → Json × Option (List Token)
  | [] => (value, some ts)
  | .item before :: stack => run ts (.afterItem (value :: before)) stack
  | .member before name :: stack => run ts (.afterMember ((name, value) :: before)) stack

/-- A token that completes a value. -/
theorem run_fill {t : Token} {ts : List Token} {mode : Mode} {stack : List Frame} {value : Json}
    (h : step mode stack t = fill value stack) :
    run (t :: ts) mode stack = after value ts stack := by
  rw [run, h]
  cases stack with
  | nil => rfl
  | cons frame stack => cases frame <;> rfl

/-- The reader goes over the tokens of a value in one stride. -/
def Strides (value : Json) : Prop :=
  ∀ ts stack, run (value.tokens ++ ts) .value stack = after value ts stack

/-- The items behind the first one, up to the end of the array. -/
theorem run_itemTokens {items : List Json} (h : ∀ x ∈ items, Strides x) (ts : List Token)
    (before : List Json) (stack : List Frame) :
    run (itemTokens items ++ .arrayEnd :: ts) (.afterItem before) stack
      = after (.array (before.reverse ++ items) true) ts stack := by
  induction items generalizing before with
  | nil =>
      rw [List.append_nil]
      exact run_fill rfl
  | cons x items ih =>
      have hrest := ih (fun y hy => h y (List.mem_cons_of_mem _ hy)) (x :: before)
      rw [itemTokens, List.cons_append, List.append_assoc]
      change run (x.tokens ++ _) .value (.item before :: stack) = _
      rw [h x List.mem_cons_self]
      change run _ (.afterItem (x :: before)) stack = _
      rw [hrest, List.reverse_cons, List.append_assoc]
      rfl

/-- The members behind the first one, up to the end of the object. -/
theorem run_memberTokens {members : List (Bytes × Json)} (h : ∀ m ∈ members, Strides m.2)
    (ts : List Token) (before : List (Bytes × Json)) (stack : List Frame) :
    run (memberTokens members ++ .objectEnd :: ts) (.afterMember before) stack
      = after (.object (before.reverse ++ members) true) ts stack := by
  induction members generalizing before with
  | nil =>
      rw [List.append_nil]
      exact run_fill rfl
  | cons m members ih =>
      obtain ⟨name, value⟩ := m
      have hvalue : Strides value := h (name, value) List.mem_cons_self
      have hrest := ih (fun n hn => h n (List.mem_cons_of_mem _ hn)) ((name, value) :: before)
      rw [memberTokens, List.cons_append, List.cons_append, List.cons_append, List.append_assoc]
      change run (value.tokens ++ _) .value (.member before name :: stack) = _
      rw [hvalue]
      change run _ (.afterMember ((name, value) :: before)) stack = _
      rw [hrest, List.reverse_cons, List.append_assoc]
      rfl

/-- Behind an opening bracket the first item starts like any other. -/
theorem run_firstItem {x : Json} (hx : .bad ∉ x.tokens) (ts : List Token) (stack : List Frame) :
    run (x.tokens ++ ts) .firstItem stack = run (x.tokens ++ ts) .value (.item [] :: stack) := by
  cases x with
  | array items closed => cases items <;> rfl
  | object members closed => cases members <;> rfl
  | broken => exact absurd List.mem_cons_self hx
  | _ => rfl

/-- The parts of what can be read can be read. -/
theorem bad_not_mem_itemTokens {items : List Json} (h : .bad ∉ itemTokens items) :
    ∀ x ∈ items, .bad ∉ x.tokens := by
  induction items with
  | nil => exact List.forall_mem_nil _
  | cons y items ih =>
      simp only [itemTokens, List.mem_cons, List.mem_append, not_or] at h
      intro x hx
      rcases List.mem_cons.1 hx with rfl | hx
      · exact h.2.1
      · exact ih h.2.2 x hx

/-- In members without a gap no value has one. -/
theorem bad_not_mem_memberTokens {members : List (Bytes × Json)} (h : .bad ∉ memberTokens members) :
    ∀ m ∈ members, .bad ∉ m.2.tokens := by
  induction members with
  | nil => exact List.forall_mem_nil _
  | cons n members ih =>
      obtain ⟨name, value⟩ := n
      simp only [memberTokens, List.mem_cons, List.mem_append, not_or] at h
      intro m hm
      rcases List.mem_cons.1 hm with rfl | hm
      · exact h.2.2.2.1
      · exact ih h.2.2.2.2 m hm

/-- **In one stride.**  The reader goes over the tokens of every complete tree in
one stride. -/
theorem run_tokens {value : Json} (h : .bad ∉ value.tokens) : Strides value := by
  induction value using treeInduction with
  | null => exact fun ts stack => run_fill rfl
  | bool value => exact fun ts stack => run_fill rfl
  | number x => exact fun ts stack => run_fill rfl
  | string raw => exact fun ts stack => run_fill rfl
  | array items closed ih =>
      intro ts stack
      cases closed with
      | false =>
          cases items with
          | nil => simp [tokens] at h
          | cons x items => simp [tokens] at h
      | true =>
          cases items with
          | nil =>
              change run (.arrayEnd :: ts) .firstItem stack = _
              exact run_fill rfl
          | cons x items =>
              simp only [tokens, List.mem_cons, List.mem_append, not_or] at h
              obtain ⟨-, hx, hitems, -⟩ := h
              have hstride := ih x List.mem_cons_self hx
              have hothers : ∀ y ∈ items, Strides y := fun y hy =>
                ih y (List.mem_cons_of_mem _ hy) (bad_not_mem_itemTokens hitems y hy)
              rw [tokens, List.cons_append, List.append_assoc, List.append_assoc]
              change run (x.tokens ++ _) .firstItem stack = _
              rw [run_firstItem hx, hstride]
              exact run_itemTokens hothers ts [x] stack
  | object members closed ih =>
      intro ts stack
      cases closed with
      | false =>
          cases members with
          | nil => simp [tokens] at h
          | cons m members => simp [tokens] at h
      | true =>
          cases members with
          | nil =>
              change run (.objectEnd :: ts) .firstName stack = _
              exact run_fill rfl
          | cons m members =>
              obtain ⟨name, value⟩ := m
              simp only [tokens, List.mem_cons, List.mem_append, not_or] at h
              obtain ⟨-, -, -, hvalue, hmembers, -⟩ := h
              have hstride : Strides value := ih (name, value) List.mem_cons_self hvalue
              have hothers : ∀ n ∈ members, Strides n.2 := fun n hn =>
                ih n (List.mem_cons_of_mem _ hn) (bad_not_mem_memberTokens hmembers n hn)
              rw [tokens, List.cons_append, List.cons_append, List.cons_append, List.append_assoc,
                List.append_assoc]
              change run (value.tokens ++ _) .value (.member [] name :: stack) = _
              rw [hstride]
              exact run_memberTokens hothers ts [(name, value)] stack
  | broken => exact absurd List.mem_cons_self h

/-! ## Nothing else -/

/-- Items with a comma behind each. -/
def leadingItems (items : List Json) : List Token := items.flatMap fun x => x.tokens ++ [.comma]

/-- Members with a comma behind each. -/
def leadingMembers (members : List (Bytes × Json)) : List Token :=
  members.flatMap fun m => .string m.1 :: .colon :: (m.2.tokens ++ [.comma])

/-- One more item at the end adds a comma and its tokens. -/
theorem itemTokens_snoc (items : List Json) (x : Json) :
    itemTokens (items ++ [x]) = .comma :: (leadingItems items ++ x.tokens) := by
  induction items with
  | nil => simp [itemTokens, leadingItems]
  | cons y items ih => simp [itemTokens, leadingItems, ih]

/-- One more member at the end adds a comma, its name and the tokens of its value. -/
theorem memberTokens_snoc (members : List (Bytes × Json)) (name : Bytes) (x : Json) :
    memberTokens (members ++ [(name, x)])
      = .comma :: (leadingMembers members ++ .string name :: .colon :: x.tokens) := by
  induction members with
  | nil => simp [memberTokens, leadingMembers]
  | cons m members ih => simp [memberTokens, leadingMembers, ih]

/-- The tokens of an array by its last item. -/
theorem tokens_array_snoc (items : List Json) (x : Json) :
    (Json.array (items ++ [x]) true).tokens
      = .arrayStart :: (leadingItems items ++ (x.tokens ++ [.arrayEnd])) := by
  cases items with
  | nil => simp [tokens, itemTokens, leadingItems]
  | cons y items => simp [tokens, itemTokens_snoc, leadingItems]

/-- The tokens of an object by its last member. -/
theorem tokens_object_snoc (members : List (Bytes × Json)) (name : Bytes) (x : Json) :
    (Json.object (members ++ [(name, x)]) true).tokens
      = .objectStart :: (leadingMembers members
        ++ (.string name :: .colon :: (x.tokens ++ [.objectEnd]))) := by
  cases members with
  | nil => simp [tokens, memberTokens, leadingMembers]
  | cons m members => simp [tokens, memberTokens_snoc, leadingMembers]

/-- The tokens in front of a value that is read within some open arrays and
objects. -/
inductive Opened : List Frame → List Token → Prop
  | nil : Opened [] []
  | item {stack : List Frame} {ts : List Token} (h : Opened stack ts) (before : List Json) :
      Opened (.item before :: stack) (ts ++ .arrayStart :: leadingItems before.reverse)
  | member {stack : List Frame} {ts : List Token} (h : Opened stack ts)
      (before : List (Bytes × Json)) (name : Bytes) :
      Opened (.member before name :: stack)
        (ts ++ .objectStart :: (leadingMembers before.reverse ++ [.string name, .colon]))

/-- The tokens that the reader went over before it came where it stands. -/
inductive Consumed (stack : List Frame) : Mode → List Token → Prop
  | value {ts : List Token} (h : Opened stack ts) : Consumed stack .value ts
  | firstItem {ts : List Token} (h : Opened stack ts) :
      Consumed stack .firstItem (ts ++ [.arrayStart])
  | afterItem {ts : List Token} (h : Opened stack ts) (before : List Json) (x : Json) :
      Consumed stack (.afterItem (x :: before))
        (ts ++ .arrayStart :: (leadingItems before.reverse ++ x.tokens))
  | firstName {ts : List Token} (h : Opened stack ts) :
      Consumed stack .firstName (ts ++ [.objectStart])
  | nextName {ts : List Token} (h : Opened stack ts) (members : List (Bytes × Json)) :
      Consumed stack (.nextName members) (ts ++ .objectStart :: leadingMembers members.reverse)
  | colon {ts : List Token} (h : Opened stack ts) (members : List (Bytes × Json)) (name : Bytes) :
      Consumed stack (.colon members name)
        (ts ++ .objectStart :: (leadingMembers members.reverse ++ [.string name]))
  | afterMember {ts : List Token} (h : Opened stack ts) (before : List (Bytes × Json))
      (name : Bytes) (x : Json) :
      Consumed stack (.afterMember ((name, x) :: before))
        (ts ++ .objectStart :: (leadingMembers before.reverse
          ++ .string name :: .colon :: x.tokens))

/-- The reader came here over these tokens. -/
def Status.Follows (ts : List Token) : Status → Prop
  | .reading mode stack => Consumed stack mode ts
  | .complete value => value.tokens = ts
  | .failed => True

variable {stack : List Frame} {ts : List Token}

/-- The tokens may be given in another way. -/
theorem Status.Follows.of_eq {status : Status} {ts' : List Token} (h : status.Follows ts)
    (hts : ts = ts') : status.Follows ts' := hts ▸ h

/-- A value is filled in when its tokens have been gone over. -/
theorem Opened.fill (h : Opened stack ts) (value : Json) :
    (fill value stack).Follows (ts ++ value.tokens) := by
  cases h with
  | nil => rfl
  | item h before =>
      rw [List.append_assoc, List.cons_append]
      exact .afterItem h before value
  | member h before name =>
      rw [List.append_assoc, List.cons_append, List.append_assoc]
      exact .afterMember h before name value

/-- The first token of a value is its only one, or opens an array or an object. -/
theorem Opened.startValue (h : Opened stack ts) (t : Token) :
    (startValue stack t).Follows (ts ++ [t]) := by
  cases t with
  | null => exact h.fill .null
  | bool value => exact h.fill (.bool value)
  | number x => exact h.fill (.number x)
  | string raw => exact h.fill (.string raw)
  | arrayStart => exact .firstItem h
  | objectStart => exact .firstName h
  | _ => trivial

/-- **One token more.** -/
theorem Consumed.step {mode : Mode} (h : Consumed stack mode ts) (t : Token) :
    (step mode stack t).Follows (ts ++ [t]) := by
  cases h with
  | value h => exact h.startValue t
  | @firstItem ts h =>
      cases t with
      | arrayEnd =>
          rw [List.append_assoc]
          exact h.fill (.array [] true)
      | _ => exact (h.item []).startValue _
  | @afterItem ts h before x =>
      cases t with
      | comma =>
          have hvalue := Consumed.value (h.item (x :: before))
          exact .of_eq hvalue (by simp [leadingItems])
      | arrayEnd =>
          have harray := h.fill (.array (x :: before).reverse true)
          exact .of_eq harray (by simp [tokens_array_snoc])
      | _ => trivial
  | @firstName ts h =>
      cases t with
      | string raw =>
          have hname := Consumed.colon h [] raw
          exact .of_eq hname (by simp [leadingMembers])
      | objectEnd =>
          rw [List.append_assoc]
          exact h.fill (.object [] true)
      | _ => trivial
  | @nextName ts h members =>
      cases t with
      | string raw =>
          have hname := Consumed.colon h members raw
          exact .of_eq hname (by simp)
      | _ => trivial
  | @colon ts h members name =>
      cases t with
      | colon =>
          have hvalue := Consumed.value (h.member members name)
          exact .of_eq hvalue (by simp)
      | _ => trivial
  | @afterMember ts h before name x =>
      cases t with
      | comma =>
          have hmember := Consumed.nextName h ((name, x) :: before)
          exact .of_eq hmember (by simp [leadingMembers])
      | objectEnd =>
          have hobject := h.fill (.object ((name, x) :: before).reverse true)
          exact .of_eq hobject (by simp [tokens_object_snoc])
      | _ => trivial

/-- The reader goes over no bad token. -/
theorem step_bad (mode : Mode) (stack : List Frame) : step mode stack .bad = .failed := by
  cases mode <;> rfl

/-- **All tokens of a tree.**  The induction is on the tokens that are left; those
that were gone over are carried along. -/
theorem Consumed.run {mode : Mode} {before rest : List Token} {value : Json}
    (h : Consumed stack mode before) (hbefore : .bad ∉ before)
    (hrun : run ts mode stack = (value, some rest)) :
    before ++ ts = value.tokens ++ rest ∧ .bad ∉ value.tokens := by
  induction ts generalizing mode stack before with
  | nil => cases hrun
  | cons t ts ih =>
      have hsplit : before ++ t :: ts = (before ++ [t]) ++ ts := by simp
      have hstep := h.step t
      have hgood : Json.step mode stack t ≠ .failed → .bad ∉ before ++ [t] := by
        intro hpasses hbad
        rcases List.mem_append.1 hbad with hbad | hbad
        · exact hbefore hbad
        · rw [← List.mem_singleton.1 hbad] at hpasses
          exact hpasses (step_bad mode stack)
      rw [Json.run] at hrun
      rw [hsplit]
      rcases hstatus : Json.step mode stack t with ⟨mode', stack'⟩ | value' | _
      · rw [hstatus] at hrun hstep hgood
        exact ih hstep (hgood nofun) hrun
      · rw [hstatus] at hrun hstep hgood
        cases hrun
        have htokens : value.tokens = before ++ [t] := hstep
        rw [htokens]
        exact ⟨rfl, hgood nofun⟩
      · rw [hstatus] at hrun
        cases hrun

/-- **What the reader gives.**  It gives a tree for the tokens of that tree, with
whatever stands behind them, and for nothing else. -/
theorem run_eq_iff {value : Json} {rest : List Token} :
    run ts .value [] = (value, some rest) ↔ ts = value.tokens ++ rest ∧ .bad ∉ value.tokens := by
  constructor
  · intro h
    exact Consumed.run (.value .nil) List.not_mem_nil h
  · intro hparts
    obtain ⟨rfl, hgood⟩ := hparts
    exact run_tokens hgood rest []

end KeyExchange.Json

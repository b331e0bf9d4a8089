import GuardWall.Nftables.Listing

/-! The elements of a set as nft lists them in JSON, and how `canonicalSetElement` reads them. -/
namespace GuardWall.Nftables.Wire

open GuardWall.Core GuardWall.Foundation GuardWall.Ipc

/-- `netip.ParsePrefix` and `netip.ParseAddr` on texts without a zone, and the text in which nft
lists an address. -/
structure Netip where
  parsePrefix : String → Option Cidr
  parseAddr : String → Option Addr
  text : Addr → String
  reads : ∀ a, parseAddr (text a) = some a
  bare : ∀ a, parsePrefix (text a) = none
  empty : parsePrefix "" = none ∧ parseAddr "" = none

section Decoding

/-- The letters that `encoding/json` takes for one. -/
def foldName (name : String) : String :=
  String.ofList <| name.toList.map fun c =>
    if c.toNat = 0x17f then 'S' else if c.toNat = 0x212a then 'K' else c.toUpper

def fieldFor (names : List String) (key : String) : Option String :=
  if key ∈ names then some key else names.find? fun name => foldName name == foldName key

/-- `json.Unmarshal` of an object into a struct. A value of another type is an error, whatever
follows. -/
def decodeFields {σ : Type} (names : List String) (store : String → Json → σ → Option σ) (start : σ)
    (fields : List (String × Json)) : Option σ :=
  fields.foldlM (fun s f => (fieldFor names f.1).elim (some s) fun name => store name f.2 s) start

def storeText (old : String) : Json → Option String
  | .null => some old
  | .text value => some value
  | _ => none

def isInt64 (value : Int) : Bool := decide (-(maxInt64 : Int) - 1 ≤ value ∧ value ≤ maxInt64)

def storeInt (old : Int) : Json → Option Int
  | .null => some old
  | .int value => if isInt64 value then some value else none
  | _ => none

def storePointer : Json → Option (Option Int)
  | .null => some none
  | value => (storeInt 0 value).map some

structure Network where
  addr : String := ""
  len : Int := 0

def Network.names : List String := ["addr", "len"]

def Network.store (name : String) (value : Json) (n : Network) : Option Network :=
  match name with
  | "addr" => (storeText n.addr value).map fun addr => { n with addr }
  | "len" => (storeInt n.len value).map fun len => { n with len }
  | _ => some n

def storeNetwork (old : Option Network) : Json → Option (Option Network)
  | .null => some none
  | .object fields => (decodeFields Network.names Network.store (old.getD {}) fields).map some
  | _ => none

structure Structured where
  val : String := ""
  addr : String := ""
  network : Option Network := none
  expires : Option Int := none

def Structured.names : List String := ["val", "addr", "prefix", "expires"]

def Structured.store (name : String) (value : Json) (s : Structured) : Option Structured :=
  match name with
  | "val" => (storeText s.val value).map fun val => { s with val }
  | "addr" => (storeText s.addr value).map fun addr => { s with addr }
  | "prefix" => (storeNetwork s.network value).map fun network => { s with network }
  | "expires" => (storePointer value).map fun expires => { s with expires }
  | _ => some s

/-- `wrapped` in `canonicalSetElement`; `elem` keeps the raw value. -/
structure Wrapped where
  elem : Option Json := none
  expires : Option Int := none

def Wrapped.names : List String := ["elem", "expires"]

def Wrapped.store (name : String) (value : Json) (w : Wrapped) : Option Wrapped :=
  match name with
  | "elem" => some { w with elem := some value }
  | "expires" => (storePointer value).map fun expires => { w with expires }
  | _ => some w

end Decoding

section Reading

variable (netip : Netip)

def parseElementPrefix (text : String) (length : Int) : Option Cidr := do
  let c ← (netip.parsePrefix text).or ((netip.parseAddr text).map fun a => ⟨a, a.bitLen, le_rfl⟩)
  let c ←
    if length = 0 then some c
    else if h : 0 ≤ length ∧ length ≤ c.addr.bitLen then
      some ⟨c.addr, length.toNat, Int.toNat_le.mpr h.2⟩
    else none
  if c = c.masked then some c else none

def Structured.cidr (s : Structured) : Option Cidr :=
  match s.network with
  | some n => parseElementPrefix netip n.addr n.len
  | none => parseElementPrefix netip (if s.val != "" then s.val else s.addr) 0

/-- `canonicalElementPrefix`. A null is decoded into the empty text. -/
def canonicalElementPrefix : Json → Option (Cidr × Option Int)
  | .text value => (parseElementPrefix netip value 0).map fun c => (c, none)
  | .null => (parseElementPrefix netip "" 0).map fun c => (c, none)
  | .object fields =>
      (decodeFields Structured.names Structured.store {} fields).bind fun s =>
        (s.cidr netip).map fun c => (c, s.expires)
  | _ => none

def unwrapElement : Json → Option (Cidr × Option Int)
  | .object fields =>
      (decodeFields Wrapped.names Wrapped.store {} fields).bind fun w =>
        (w.elem.bind (canonicalElementPrefix netip)).map fun r => (r.1, w.expires.or r.2)
  | _ => none

def canonicalSetElement (raw : Json) : Option (Cidr × Option Int) :=
  (canonicalElementPrefix netip raw).or (unwrapElement netip raw)

def setElements : Json → Option Json
  | .object fields => (decodeFields ["elem"] Wrapped.store {} fields).bind Wrapped.elem
  | _ => none

def nftSetElement (now : Reading) (raw : Json) : Option Listed := do
  let (c, expires) ← canonicalSetElement netip raw
  match expires with
  | none => return ⟨c, none⟩
  | some seconds =>
      let untilUS := expiryUnixMicro now seconds
      if untilUS ≤ 0 then none else return ⟨c, some untilUS⟩

def nftSetElements (now : Reading) (body : Json) : Option (List Listed) :=
  match setElements body with
  | none => some []
  | some .null => some []
  | some (.array items) => items.mapM (nftSetElement netip now)
  | some _ => none

end Reading

section Listing

variable (netip : Netip)

def listedPrefix (c : Cidr) : Json :=
  if c.bits = c.addr.bitLen then .text (netip.text c.addr)
  else .object [("prefix", .object [("addr", .text (netip.text c.addr)), ("len", .int c.bits)])]

def listedElement (c : Cidr) : Option (Int × Int) → Json
  | none => listedPrefix netip c
  | some (timeout, expires) =>
      .object [("elem", .object [("val", listedPrefix netip c), ("timeout", .int timeout),
        ("expires", .int expires)])]

end Listing

section RoundTrip

variable (netip : Netip) {c : Cidr}

theorem text_ne_empty (a : Addr) : netip.text a ≠ "" := by
  intro same
  have read := netip.reads a
  rw [same, netip.empty.2] at read
  cases read

theorem parseElementPrefix_empty : parseElementPrefix netip "" 0 = none := by
  simp [parseElementPrefix, netip.empty]

theorem parseElementPrefix_host (a : Addr) :
    parseElementPrefix netip (netip.text a) 0 = some ⟨a, a.bitLen, le_rfl⟩ := by
  have whole : (⟨a, a.bitLen, le_rfl⟩ : Cidr) = Cidr.masked ⟨a, a.bitLen, le_rfl⟩ := by
    simp [Cidr.masked, keep_bitLen]
  simp [parseElementPrefix, netip.bare, netip.reads, ← whole]

theorem parseElementPrefix_network (short : c.bits ≠ 0) :
    parseElementPrefix netip (netip.text c.addr) c.bits =
      if c = c.masked then some c else none := by
  simp [parseElementPrefix, netip.bare, netip.reads, short, c.bounded]

theorem isInt64_bits (c : Cidr) : isInt64 c.bits = true := by
  have bounded := c.bounded
  have width : c.addr.bitLen ≤ 128 := by cases c.addr <;> simp [Addr.bitLen]
  unfold isInt64 maxInt64
  exact decide_eq_true (by omega)

variable {σ : Type} {names : List String} {key : String}

@[simp] theorem decodeFields_nil (names : List String) (store : String → Json → σ → Option σ)
    (start : σ) :
    decodeFields names store start [] = some start := rfl

theorem decodeFields_known (known : fieldFor names key = some key)
    (store : String → Json → σ → Option σ) (start : σ) (value : Json) (rest : List (String × Json))
    :
    decodeFields names store start ((key, value) :: rest) =
      (store key value start).bind fun s => decodeFields names store s rest := by
  unfold decodeFields
  rw [List.foldlM_cons, known]
  rfl

theorem decodeFields_other (other : fieldFor names key = none)
    (store : String → Json → σ → Option σ) (start : σ) (value : Json) (rest : List (String × Json))
    :
    decodeFields names store start ((key, value) :: rest) =
      decodeFields names store start rest := by
  unfold decodeFields
  rw [List.foldlM_cons, other]
  rfl

theorem canonicalElementPrefix_fields (fields : List (String × Json)) :
    canonicalElementPrefix netip (.object fields) =
      (decodeFields Structured.names Structured.store {} fields).bind fun s =>
        (s.cidr netip).map fun c => (c, s.expires) := rfl

theorem canonicalElementPrefix_network (addr : String) {len : Int} (fits : isInt64 len = true) :
    canonicalElementPrefix netip
        (.object [("prefix", .object [("addr", .text addr), ("len", .int len)])]) =
      (parseElementPrefix netip addr len).map fun c => (c, none) := by
  have network : storeNetwork none (.object [("addr", .text addr), ("len", .int len)]) =
      some (some ⟨addr, len⟩) := by
    show (decodeFields Network.names Network.store {} _).map some = _
    rw [decodeFields_known (by decide)]
    simp only [Network.store, storeText, Option.map_some, Option.bind_some]
    rw [decodeFields_known (by decide)]
    simp [Network.store, storeInt, fits]
  rw [canonicalElementPrefix_fields, decodeFields_known (by decide)]
  simp only [Structured.store, network, Option.map_some, Option.bind_some, decodeFields_nil]
  rfl

theorem canonicalElementPrefix_wrapped (inner : Json) :
    canonicalElementPrefix netip (.object [("elem", inner)]) = none := by
  rw [canonicalElementPrefix_fields, decodeFields_other (by decide), decodeFields_nil]
  simp [Structured.cidr, parseElementPrefix_empty]

theorem canonicalElementPrefix_val {val : String} (some_ : val ≠ "") (timeout expires : Int) :
    canonicalElementPrefix netip
        (.object [("val", .text val), ("timeout", .int timeout), ("expires", .int expires)]) =
      if isInt64 expires then (parseElementPrefix netip val 0).map fun c => (c, some expires)
      else none := by
  rw [canonicalElementPrefix_fields, decodeFields_known (by decide)]
  simp only [Structured.store, storeText, Option.map_some, Option.bind_some]
  rw [decodeFields_other (by decide), decodeFields_known (by decide)]
  simp only [Structured.store, storePointer, storeInt]
  split
  · simp [Structured.cidr, some_]
  · rfl

theorem canonicalElementPrefix_object (fields rest : List (String × Json)) :
    canonicalElementPrefix netip (.object (("val", .object fields) :: rest)) = none := by
  rw [canonicalElementPrefix_fields, decodeFields_known (by decide)]
  rfl

theorem unwrapElement_fields (fields : List (String × Json)) :
    unwrapElement netip (.object fields) =
      (decodeFields Wrapped.names Wrapped.store {} fields).bind fun w =>
        (w.elem.bind (canonicalElementPrefix netip)).map fun r => (r.1, w.expires.or r.2) := rfl

theorem unwrapElement_elem (inner : Json) :
    unwrapElement netip (.object [("elem", inner)]) = canonicalElementPrefix netip inner := by
  rw [unwrapElement_fields, decodeFields_known (by decide)]
  show (canonicalElementPrefix netip inner).map (fun r => (r.1, r.2)) = _
  exact Option.map_id'

theorem listedPrefix_host (host : c.bits = c.addr.bitLen) :
    listedPrefix netip c = .text (netip.text c.addr) := if_pos host

theorem host_eq (host : c.bits = c.addr.bitLen) : (⟨c.addr, c.addr.bitLen, le_rfl⟩ : Cidr) = c := by
  obtain ⟨addr, bits, bounded⟩ := c
  simp only at host
  simp [host]

theorem canonicalSetElement_permanent (canonical : c = c.masked) :
    canonicalSetElement netip (listedElement netip c none) = some (readAs c, none) := by
  have read : canonicalElementPrefix netip (listedPrefix netip c) = some (readAs c, none) := by
    by_cases host : c.bits = c.addr.bitLen
    · have positive : c.bits ≠ 0 := by
        rw [host]
        cases c.addr <;> simp [Addr.bitLen]
      rw [listedPrefix_host netip host, readAs_of_bits positive]
      show (parseElementPrefix netip (netip.text c.addr) 0).map _ = _
      rw [parseElementPrefix_host, host_eq host]
      rfl
    · unfold listedPrefix
      rw [if_neg host, canonicalElementPrefix_network netip _ (isInt64_bits c)]
      by_cases short : c.bits = 0
      · rw [short]
        show (parseElementPrefix netip (netip.text c.addr) 0).map _ = _
        rw [parseElementPrefix_host]
        simp [readAs, short]
      · rw [parseElementPrefix_network netip short, if_pos canonical, readAs_of_bits short]
        rfl
  unfold canonicalSetElement listedElement
  rw [read, Option.some_or]

theorem canonicalSetElement_timed (timeout expires : Int) :
    canonicalSetElement netip (listedElement netip c (some (timeout, expires))) =
      if c.bits = c.addr.bitLen ∧ isInt64 expires then some (c, some expires) else none := by
  unfold canonicalSetElement listedElement
  rw [canonicalElementPrefix_wrapped, Option.none_or, unwrapElement_elem]
  by_cases host : c.bits = c.addr.bitLen
  · rw [listedPrefix_host netip host,
      canonicalElementPrefix_val netip (text_ne_empty netip c.addr), parseElementPrefix_host,
      host_eq host]
    simp [host]
  · unfold listedPrefix
    rw [if_neg host, canonicalElementPrefix_object, if_neg fun both => host both.1]

/-- Which elements are read back: hosts, and networks without a timeout except those of length 0. -/
theorem canonicalSetElement_listed_iff (canonical : c = c.masked) (timing : Option (Int × Int)) :
    canonicalSetElement netip (listedElement netip c timing) = some (c, timing.map Prod.snd) ↔
      (c.bits = c.addr.bitLen ∨ timing = none ∧ c.bits ≠ 0) ∧
        ∀ timeout expires, timing = some (timeout, expires) → isInt64 expires = true := by
  cases timing with
  | none =>
    rw [canonicalSetElement_permanent netip canonical]
    by_cases short : c.bits = 0
    · have width : c.addr.bitLen ≠ 0 := by cases c.addr <;> simp [Addr.bitLen]
      have other : readAs c ≠ c := by
        intro same
        have bits := congrArg Cidr.bits same
        simp only [readAs, short, if_true] at bits
        exact width bits
      simp [short, other, width.symm]
    · simp [short, readAs_of_bits short]
  | some timing =>
    obtain ⟨timeout, expires⟩ := timing
    rw [canonicalSetElement_timed]
    by_cases host : c.bits = c.addr.bitLen
    · simp [host]
    · simp [host]

end RoundTrip

open Classical in
/-- A reader of just the texts that `Addr.String` and `Prefix.String` write. -/
noncomputable def Sample.netip : Netip where
  parsePrefix value := if h : ∃ c : Cidr, c.toText = value then some h.choose else none
  parseAddr value := if h : ∃ a : Addr, a.toText = value then some h.choose else none
  text := Addr.toText
  reads a := by
    have found : ∃ b : Addr, b.toText = a.toText := ⟨a, rfl⟩
    rw [dif_pos found, Addr.toText_inj found.choose_spec]
  bare a := by
    refine dif_neg ?_
    rintro ⟨c, same⟩
    refine a.notMem_toText (.inl rfl) ?_
    rw [← same]
    simp [Cidr.toText]
  empty := by
    constructor
    · refine dif_neg ?_
      rintro ⟨c, same⟩
      have chars := congrArg String.toList same
      simp [Cidr.toText] at chars
    · refine dif_neg ?_
      rintro ⟨a, same⟩
      cases a with
      | v4 bits =>
        have member := Addr.dot_mem_dotted bits.toNat
        rw [show Addr.dotted bits.toNat = "" from same] at member
        cases member
      | v6 bits =>
        have member := Addr.colon_mem_v6 bits
        rw [same] at member
        cases member

theorem canonicalSetElement_listed_iff_host :
    canonicalSetElement Sample.netip
        (listedElement Sample.netip Nftables.Sample.target (some (60, 59))) =
      some (Nftables.Sample.target, some 59) :=
  (canonicalSetElement_listed_iff Sample.netip (by decide) (some (60, 59))).mpr
    ⟨.inl rfl, by rintro _ _ ⟨⟩; decide⟩

/-- A network with a timeout is not read at all, and the whole address space is read as an address. -/
theorem listed_networks_misread :
    canonicalSetElement Sample.netip (listedElement Sample.netip
        ⟨.v4 0xc6336400#32, 24, by decide⟩ (some (60, 59))) = none ∧
      canonicalSetElement Sample.netip (listedElement Sample.netip ⟨.v4 0#32, 0, by decide⟩ none) =
        some (⟨.v4 0#32, 32, by decide⟩, none) := by
  constructor
  · exact canonicalSetElement_timed Sample.netip 60 59
  · exact canonicalSetElement_permanent Sample.netip (by decide)

section Sets

variable (netip : Netip) (now : Reading)

def listedAs (timeout : Element → Int) (e : Element) : Json :=
  listedElement netip e.cidr (e.remainingMS.map fun ms => (timeout e, (ms / 1000 : Nat)))

theorem nftSetElement_listed (timeout : Element → Int) {e : Element}
    (canonical : e.cidr = e.cidr.masked)
    (fits : ∀ ms, e.remainingMS = some ms → isInt64 (ms / 1000 : Nat) = true) :
    nftSetElement netip now (listedAs netip timeout e) = listElement now e := by
  have read : Nftables.parseElementPrefix e.cidr = some (readAs e.cidr) := by
    refine parseElementPrefix_eq_some.mpr ⟨rfl, ?_⟩
    unfold readAs
    split
    · simp [Cidr.masked, keep_bitLen]
    · exact canonical
  unfold nftSetElement listedAs listElement Element.legible
  cases left : e.remainingMS with
  | none =>
    rw [Option.map_none, canonicalSetElement_permanent netip canonical, read]
    rfl
  | some ms =>
    rw [Option.map_some, canonicalSetElement_timed, read]
    by_cases host : e.cidr.bits = e.cidr.addr.bitLen
    · have own : readAs e.cidr = e.cidr := readAs_of_bits <| by
        rw [host]
        cases e.cidr.addr <;> simp [Addr.bitLen]
      rw [if_pos ⟨host, fits ms left⟩]
      simp [host, own]
    · simp [host]

def listedSet (head : List (String × Json)) (items : List Json) : Json :=
  .object (head ++ if items.isEmpty then [] else [("elem", .array items)])

theorem setElements_listedSet {head : List (String × Json)}
    (other : ∀ f ∈ head, fieldFor ["elem"] f.1 = none) (items : List Json) :
    setElements (listedSet head items) = if items.isEmpty then none else some (.array items) := by
  have skipped : ∀ rest, decodeFields ["elem"] Wrapped.store {} (head ++ rest) =
      decodeFields ["elem"] Wrapped.store {} rest := by
    intro rest
    induction head with
    | nil => rfl
    | cons f head ih =>
      rw [List.cons_append, decodeFields_other (other f List.mem_cons_self)]
      exact ih fun g member => other g (List.mem_cons_of_mem f member)
  unfold listedSet
  show (decodeFields ["elem"] Wrapped.store {} _).bind Wrapped.elem = _
  rw [skipped]
  split
  · rfl
  · rw [decodeFields_known (by decide)]
    rfl

/-- The elements that are read of a listed set are those the model of the ruleset has. -/
theorem nftSetElements_listed (timeout : Element → Int) {head : List (String × Json)}
    (other : ∀ f ∈ head, fieldFor ["elem"] f.1 = none) {s : NftSet}
    (canonical : ∀ e ∈ s.elements, e.cidr = e.cidr.masked)
    (fits : ∀ e ∈ s.elements, ∀ ms, e.remainingMS = some ms → isInt64 (ms / 1000 : Nat) = true) :
    nftSetElements netip now (listedSet head (s.elements.map (listedAs netip timeout))) =
      Nftables.nftSetElements now s := by
  unfold nftSetElements Nftables.nftSetElements
  rw [setElements_listedSet other]
  cases elements : s.elements with
  | nil => rfl
  | cons first rest =>
    rw [← elements, if_neg (by simp [elements])]
    show (s.elements.map (listedAs netip timeout)).mapM (nftSetElement netip now) = _
    generalize s.elements = elements at canonical fits
    clear * - canonical fits
    induction elements with
    | nil => rfl
    | cons e rest ih =>
      have head := nftSetElement_listed netip now timeout (canonical e List.mem_cons_self)
        (fits e List.mem_cons_self)
      have tail := ih (fun e member => canonical e (List.mem_cons_of_mem _ member))
        (fun e member => fits e (List.mem_cons_of_mem _ member))
      rw [List.map_cons, List.mapM_cons, List.mapM_cons, head, tail]

end Sets

/-- A network and a host whose timeout runs. -/
theorem nftSetElements_listed_network :
    let network : Cidr := ⟨.v4 0xC6336400#32, 24, by decide⟩
    ∃ now : Reading,
      nftSetElements Sample.netip now (listedSet [("comment", .null)]
        [listedElement Sample.netip network none,
          listedElement Sample.netip Nftables.Sample.target (some (60, 59))]) =
        Nftables.nftSetElements now
          ⟨true, true, [⟨network, none⟩, ⟨Nftables.Sample.target, some 59000⟩]⟩ := by
  intro network
  refine ⟨⟨1000000000, by decide, by decide⟩, ?_⟩
  exact @nftSetElements_listed Sample.netip _ (fun _ => 60) _ (by decide)
    ⟨true, true, [⟨network, none⟩, ⟨Nftables.Sample.target, some 59000⟩]⟩ (by decide)
    (by simp; decide)

end GuardWall.Nftables.Wire

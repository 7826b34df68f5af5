import Polaris.Bolt.SortedMap

/-!
# Instance ids

`CalculateInstanceID` (naming/utils.go) hashes the string `namespace##service##host##port`,
or `namespace##service##vpcID##host##port` when the vpcID is not empty, with SHA-1 and
hex-encodes the digest.  The namespace and service names it is called with have passed
`checkResourceName`, whose pattern `^[0-9A-Za-z-.:_]+$` admits no `#`; the host has passed
`checkInstanceHost`, which rejects only the missing and the empty host.

The digest itself is a parameter of the model: what is proved is what the code does around it.

Principal results:

* `checkResourceName_ok_iff`, `checkInstanceHost_ok_iff` — what each check admits;
* `formatDecimal_injective` — the decimal `%d` text determines the port;
* `instanceIDStr_host_collision` — a host that holds `##` makes an instance without a vpcID
  build the same string, hence the same id, as an instance with one;
* `instanceIDStr_injective` — for hosts without `#`, the string determines the instance, and
  two instances with the same id are equal or a SHA-1 collision.
-/

set_option autoImplicit false

namespace Polaris

/-! ## The checks -/

/-- A byte of the class `[0-9A-Za-z-.:_]`.  Go compiles the pattern with Perl syntax, where
the `-` that follows the range `a-z` is a literal. -/
def isNameByte (b : Fin 256) : Bool :=
  let ch := Char.ofNat b.val
  ch.isAlphanum || ch ∈ ['-', '.', ':', '_']

/-- `regexp.MatchString("^[0-9A-Za-z-.:_]+$", s)`.  Go matches rune by rune; every rune of
the class is ASCII and no byte of a longer (or invalid) UTF-8 sequence is, so the pattern
matches exactly the non-empty strings all of whose bytes are in the class. -/
def matchResourceName (s : Bytes) : Bool := !s.isEmpty && s.all isNameByte

/-- `checkResourceName`.  The pattern is a constant that compiles, so `MatchString` never
returns an error. -/
def checkResourceName (name : Option Bytes) : Except String Unit :=
  match name with
  | none => .error "nil"
  | some v =>
    if v = [] then .error "empty"
    else if !matchResourceName v then .error "name contains invalid character"
    else .ok ()

/-- `checkInstanceHost`. -/
def checkInstanceHost (host : Option Bytes) : Except String Unit :=
  match host with
  | none => .error "nil"
  | some v => if v = [] then .error "empty" else .ok ()

theorem checkResourceName_ok_iff (name : Option Bytes) :
    checkResourceName name = .ok () ↔ ∃ v, name = some v ∧ v ≠ [] ∧ ∀ b ∈ v, isNameByte b := by
  unfold checkResourceName matchResourceName
  rcases name with _ | v
  · simp
  · by_cases hv : v = [] <;> simp [hv]

theorem checkInstanceHost_ok_iff (host : Option Bytes) :
    checkInstanceHost host = .ok () ↔ ∃ v, host = some v ∧ v ≠ [] := by
  unfold checkInstanceHost
  rcases host with _ | v
  · simp
  · by_cases hv : v = [] <;> simp [hv]

/-- The byte `#`. -/
def hashByte : Fin 256 := 35

theorem ascii_separator : ascii "##" = [hashByte, hashByte] := rfl

theorem hashByte_not_mem_of_checkResourceName {v : Bytes}
    (h : checkResourceName (some v) = .ok ()) : hashByte ∉ v := by
  obtain ⟨_, ⟨⟩, -, hall⟩ := (checkResourceName_ok_iff _).mp h
  exact fun hm => absurd (hall _ hm) (by decide)

/-! ## The id -/

/-- `fmt`'s `%d` of an unsigned integer: its decimal digits. -/
def formatDecimal (n : Nat) : Bytes := ascii (toString n)

theorem formatDecimal_eq (n : Nat) :
    formatDecimal n = (Nat.toDigitsCore 10 (n + 1) n []).map fun ch => Fin.ofNat ch.toNat :=
  rfl

/-- The string `CalculateInstanceID` hashes, `str`. -/
def CalculateInstanceID.str (namespace_ service vpcID host : Bytes) (port : UInt32) : Bytes :=
  if vpcID = [] then
    namespace_ ++ ascii "##" ++ service ++ ascii "##" ++ host ++ ascii "##" ++
      formatDecimal port.toNat
  else
    namespace_ ++ ascii "##" ++ service ++ ascii "##" ++ vpcID ++ ascii "##" ++ host ++
      ascii "##" ++ formatDecimal port.toNat

/-- `hex`'s `hextable`. -/
def hextable : Bytes := ascii "0123456789abcdef"

/-- `hex.EncodeToString`: two lower-case digits a byte, the high one first. -/
def hexEncode (src : Bytes) : Bytes :=
  src.flatMap fun v => [hextable.getD (v.val / 16) 0, hextable.getD (v.val % 16) 0]

/-- `CalculateInstanceID`, with the SHA-1 digest `sha1` as a parameter.  Writing to a hash
never fails, so the error result is never taken. -/
def CalculateInstanceID (sha1 : Bytes → Bytes) (namespace_ service vpcID host : Bytes)
    (port : UInt32) : Except String Bytes :=
  .ok (hexEncode (sha1 (CalculateInstanceID.str namespace_ service vpcID host port)))

/-! ## Reading the string back -/

/-- Cutting at the first occurrence of a byte that both left parts avoid. -/
theorem append_cons_cancel_left {x : Fin 256} {a b s t : Bytes} (ha : x ∉ a) (hb : x ∉ b)
    (h : a ++ x :: s = b ++ x :: t) : a = b ∧ s = t := by
  rcases List.append_eq_append_iff.mp h with ⟨m, rfl, hm⟩ | ⟨m, rfl, hm⟩
  · cases m with
    | nil => simpa using hm
    | cons y m => simp only [List.cons_append, List.cons.injEq] at hm; simp [hm.1] at hb
  · cases m with
    | nil => simpa using hm.symm
    | cons y m => simp only [List.cons_append, List.cons.injEq] at hm; simp [hm.1] at ha

/-- Cutting at the last occurrence of a byte that both right parts avoid. -/
theorem append_cons_cancel_right {x : Fin 256} {a b s t : Bytes} (hs : x ∉ s) (ht : x ∉ t)
    (h : a ++ x :: s = b ++ x :: t) : a = b ∧ s = t := by
  have hr := congrArg List.reverse h
  simp only [List.reverse_append, List.reverse_cons, List.append_assoc, List.singleton_append]
    at hr
  obtain ⟨h₁, h₂⟩ := append_cons_cancel_left (by simpa using hs) (by simpa using ht) hr
  exact ⟨List.reverse_injective h₂, List.reverse_injective h₁⟩

/-- The value of the decimal digits read so far, extended by one digit. -/
def digitValue (acc : Nat) (b : Fin 256) : Nat := 10 * acc + (b.val - 48)

theorem digitChar_byte (d : Fin 10) :
    ((Fin.ofNat (Nat.digitChar d).toNat : Fin 256)).val - 48 = d ∧
      (Fin.ofNat (Nat.digitChar d).toNat : Fin 256) ≠ hashByte := by
  revert d; decide

/-- One step of `Nat.toDigitsCore` in base 10: the last digit goes in front of `ds`. -/
theorem toDigitsCore_succ (fuel n : Nat) (ds : List Char) :
    Nat.toDigitsCore 10 (fuel + 1) n ds =
      if n / 10 = 0 then Nat.digitChar (n % 10) :: ds
      else Nat.toDigitsCore 10 fuel (n / 10) (Nat.digitChar (n % 10) :: ds) := rfl

theorem foldl_digitValue_toDigitsCore (fuel n : Nat) (ds : List Char) (h : n < fuel) :
    ((Nat.toDigitsCore 10 fuel n ds).map fun ch => (Fin.ofNat ch.toNat : Fin 256)).foldl
        digitValue 0 =
      (ds.map fun ch => (Fin.ofNat ch.toNat : Fin 256)).foldl digitValue n := by
  induction fuel generalizing n ds with
  | zero => omega
  | succ fuel ih =>
    have hd := (digitChar_byte ⟨n % 10, Nat.mod_lt n (by omega)⟩).1
    have hn : 10 * (n / 10) + n % 10 = n := Nat.div_add_mod n 10
    rw [toDigitsCore_succ]
    split_ifs with h0
    · simp only [List.map_cons, List.foldl_cons, digitValue, hd]
      congr 1; omega
    · rw [ih _ _ (by omega)]
      simp only [List.map_cons, List.foldl_cons, digitValue, hd, hn]

theorem hashByte_not_mem_toDigitsCore (fuel n : Nat) (ds : List Char)
    (h : hashByte ∉ ds.map fun ch => (Fin.ofNat ch.toNat : Fin 256)) :
    hashByte ∉ (Nat.toDigitsCore 10 fuel n ds).map fun ch => (Fin.ofNat ch.toNat : Fin 256) := by
  induction fuel generalizing n ds with
  | zero => exact h
  | succ fuel ih =>
    have hd := (digitChar_byte ⟨n % 10, Nat.mod_lt n (by omega)⟩).2
    have hcons : hashByte ∉ (Nat.digitChar (n % 10) :: ds).map
        fun ch => (Fin.ofNat ch.toNat : Fin 256) := by
      simp only [List.map_cons, List.mem_cons, not_or]; exact ⟨Ne.symm hd, h⟩
    rw [toDigitsCore_succ]
    split_ifs
    · exact hcons
    · exact ih _ _ hcons

theorem formatDecimal_injective : Function.Injective formatDecimal := by
  intro m n h
  have hv := congrArg (List.foldl digitValue 0) h
  rw [formatDecimal_eq, formatDecimal_eq] at hv
  rwa [foldl_digitValue_toDigitsCore _ _ _ (by omega),
    foldl_digitValue_toDigitsCore _ _ _ (by omega)] at hv

theorem hashByte_not_mem_formatDecimal (n : Nat) : hashByte ∉ formatDecimal n :=
  formatDecimal_eq n ▸ hashByte_not_mem_toDigitsCore _ _ [] (by simp)

theorem hexEncode_injective : Function.Injective hexEncode := by
  intro a
  induction a with
  | nil => rintro (_ | ⟨y, b⟩) h <;> simp_all [hexEncode]
  | cons x a ih =>
    rintro (_ | ⟨y, b⟩) h
    · simp [hexEncode] at h
    · simp only [hexEncode, List.flatMap_cons, List.cons_append, List.singleton_append,
        List.cons.injEq] at h
      have hdigit : ∀ i j : Fin 16, hextable.getD i 0 = hextable.getD j 0 → i = j := by decide
      have hhi := hdigit ⟨x.val / 16, by omega⟩ ⟨y.val / 16, by omega⟩ h.1
      have hlo := hdigit ⟨x.val % 16, by omega⟩ ⟨y.val % 16, by omega⟩ h.2.1
      simp only [Fin.mk.injEq] at hhi hlo
      rw [ih h.2.2, Fin.ext (by omega : x.val = y.val)]

/-! ## Collisions -/

/-- **A host holding `##` collides.**  The instance `ns`/`svc` on host `h##x` without a vpcID,
and the instance `ns`/`svc` in vpc `h` on host `x`, pass every check and build the same string,
so they get the same id whatever the digest. -/
theorem instanceIDStr_host_collision :
    checkResourceName (some (ascii "ns")) = .ok () ∧
    checkResourceName (some (ascii "svc")) = .ok () ∧
    checkInstanceHost (some (ascii "h##x")) = .ok () ∧
    checkInstanceHost (some (ascii "x")) = .ok () ∧
    ([] : Bytes) ≠ ascii "h" ∧
    CalculateInstanceID.str (ascii "ns") (ascii "svc") [] (ascii "h##x") 80 =
      CalculateInstanceID.str (ascii "ns") (ascii "svc") (ascii "h") (ascii "x") 80 ∧
    ∀ sha1, CalculateInstanceID sha1 (ascii "ns") (ascii "svc") [] (ascii "h##x") 80 =
      CalculateInstanceID sha1 (ascii "ns") (ascii "svc") (ascii "h") (ascii "x") 80 :=
  ⟨rfl, rfl, rfl, rfl, by decide, by decide, fun _ => rfl⟩

/-- The string with the two formats unfolded into one: the vpcID part is empty or
`##vpcID`. -/
theorem CalculateInstanceID.str_eq (namespace_ service vpcID host : Bytes) (port : UInt32) :
    CalculateInstanceID.str namespace_ service vpcID host port =
      ((((namespace_ ++ hashByte :: hashByte ::
          (service ++ (if vpcID = [] then [] else hashByte :: hashByte :: vpcID))) ++
        [hashByte]) ++ hashByte :: host) ++ [hashByte]) ++ hashByte :: formatDecimal port.toNat := by
  unfold CalculateInstanceID.str
  split_ifs <;> simp [ascii_separator]

/-- The service together with the vpcID part determines both, as the service has no `#`. -/
theorem service_vpcID_cancel {service service' vpcID vpcID' : Bytes}
    (hs : hashByte ∉ service) (hs' : hashByte ∉ service')
    (h : service ++ (if vpcID = [] then [] else hashByte :: hashByte :: vpcID) =
      service' ++ (if vpcID' = [] then [] else hashByte :: hashByte :: vpcID')) :
    service = service' ∧ vpcID = vpcID' := by
  by_cases hv : vpcID = [] <;> by_cases hv' : vpcID' = [] <;> simp only [hv, hv', if_true,
    if_false, List.append_nil] at h
  · exact ⟨h, hv.trans hv'.symm⟩
  · exact absurd (h ▸ List.mem_append_right _ (List.mem_cons_self _ _)) hs
  · exact absurd (h ▸ List.mem_append_right _ (List.mem_cons_self _ _)) hs'
  · obtain ⟨h₁, h₂⟩ := append_cons_cancel_left hs hs' h
    exact ⟨h₁, List.cons_injective h₂⟩

/-- **The id string determines the instance, for hosts without `#`.**  Namespaces and services
admitted by `checkResourceName`, hosts holding no `#` (the empty host included) and any vpcID:
equal strings come from equal instances, and equal ids from equal instances or from two
different strings with the same SHA-1 digest. -/
theorem instanceIDStr_injective {namespace₁ namespace₂ service₁ service₂ vpcID₁ vpcID₂ host₁
      host₂ : Bytes} {port₁ port₂ : UInt32}
    (hn₁ : checkResourceName (some namespace₁) = .ok ())
    (hn₂ : checkResourceName (some namespace₂) = .ok ())
    (hs₁ : checkResourceName (some service₁) = .ok ())
    (hs₂ : checkResourceName (some service₂) = .ok ())
    (hh₁ : hashByte ∉ host₁) (hh₂ : hashByte ∉ host₂) :
    (CalculateInstanceID.str namespace₁ service₁ vpcID₁ host₁ port₁ =
        CalculateInstanceID.str namespace₂ service₂ vpcID₂ host₂ port₂ →
      namespace₁ = namespace₂ ∧ service₁ = service₂ ∧ vpcID₁ = vpcID₂ ∧ host₁ = host₂ ∧
        port₁ = port₂) ∧
    ∀ sha1, CalculateInstanceID sha1 namespace₁ service₁ vpcID₁ host₁ port₁ =
        CalculateInstanceID sha1 namespace₂ service₂ vpcID₂ host₂ port₂ →
      (namespace₁ = namespace₂ ∧ service₁ = service₂ ∧ vpcID₁ = vpcID₂ ∧ host₁ = host₂ ∧
        port₁ = port₂) ∨
      (CalculateInstanceID.str namespace₁ service₁ vpcID₁ host₁ port₁ ≠
          CalculateInstanceID.str namespace₂ service₂ vpcID₂ host₂ port₂ ∧
        sha1 (CalculateInstanceID.str namespace₁ service₁ vpcID₁ host₁ port₁) =
          sha1 (CalculateInstanceID.str namespace₂ service₂ vpcID₂ host₂ port₂)) := by
  have hstr : CalculateInstanceID.str namespace₁ service₁ vpcID₁ host₁ port₁ =
      CalculateInstanceID.str namespace₂ service₂ vpcID₂ host₂ port₂ →
      namespace₁ = namespace₂ ∧ service₁ = service₂ ∧ vpcID₁ = vpcID₂ ∧ host₁ = host₂ ∧
        port₁ = port₂ := by
    intro h
    rw [CalculateInstanceID.str_eq, CalculateInstanceID.str_eq] at h
    -- from the right: the port, then the host; from the left: the namespace, then the rest
    obtain ⟨h, hport⟩ := append_cons_cancel_right (hashByte_not_mem_formatDecimal _)
      (hashByte_not_mem_formatDecimal _) h
    obtain ⟨h, hhost⟩ := append_cons_cancel_right hh₁ hh₂ (List.append_cancel_right h)
    obtain ⟨hns, h⟩ := append_cons_cancel_left (hashByte_not_mem_of_checkResourceName hn₁)
      (hashByte_not_mem_of_checkResourceName hn₂) (List.append_cancel_right h)
    obtain ⟨hsvc, hvpc⟩ := service_vpcID_cancel (hashByte_not_mem_of_checkResourceName hs₁)
      (hashByte_not_mem_of_checkResourceName hs₂) (List.cons_injective h)
    exact ⟨hns, hsvc, hvpc, hhost, UInt32.toNat.inj (formatDecimal_injective hport)⟩
  refine ⟨hstr, fun sha1 h => ?_⟩
  have hsha : sha1 (CalculateInstanceID.str namespace₁ service₁ vpcID₁ host₁ port₁) =
      sha1 (CalculateInstanceID.str namespace₂ service₂ vpcID₂ host₂ port₂) :=
    hexEncode_injective (Except.ok.inj h)
  by_cases heq : CalculateInstanceID.str namespace₁ service₁ vpcID₁ host₁ port₁ =
      CalculateInstanceID.str namespace₂ service₂ vpcID₂ host₂ port₂
  · exact Or.inl (hstr heq)
  · exact Or.inr ⟨heq, hsha⟩

/-- The instances `ns`/`svc` on host `x` without a vpcID and in vpc `h` meet the hypotheses of
`instanceIDStr_injective`. -/
theorem instanceIDStr_injective_host_x :
    checkResourceName (some (ascii "ns")) = .ok () ∧
    checkResourceName (some (ascii "svc")) = .ok () ∧
    hashByte ∉ ascii "x" ∧
    (CalculateInstanceID.str (ascii "ns") (ascii "svc") [] (ascii "x") 80 =
        CalculateInstanceID.str (ascii "ns") (ascii "svc") (ascii "h") (ascii "x") 80 →
      ascii "ns" = ascii "ns" ∧ ascii "svc" = ascii "svc" ∧ [] = ascii "h" ∧
        ascii "x" = ascii "x" ∧ (80 : UInt32) = 80) ∧
    ∀ sha1, CalculateInstanceID sha1 (ascii "ns") (ascii "svc") [] (ascii "x") 80 =
        CalculateInstanceID sha1 (ascii "ns") (ascii "svc") (ascii "h") (ascii "x") 80 →
      (ascii "ns" = ascii "ns" ∧ ascii "svc" = ascii "svc" ∧ [] = ascii "h" ∧
        ascii "x" = ascii "x" ∧ (80 : UInt32) = 80) ∨
      (CalculateInstanceID.str (ascii "ns") (ascii "svc") [] (ascii "x") 80 ≠
          CalculateInstanceID.str (ascii "ns") (ascii "svc") (ascii "h") (ascii "x") 80 ∧
        sha1 (CalculateInstanceID.str (ascii "ns") (ascii "svc") [] (ascii "x") 80) =
          sha1 (CalculateInstanceID.str (ascii "ns") (ascii "svc") (ascii "h") (ascii "x") 80)) :=
  ⟨rfl, rfl, by decide, instanceIDStr_injective rfl rfl rfl rfl (by decide) (by decide)⟩

end Polaris

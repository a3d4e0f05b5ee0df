import MynaCard.Certificates

/-!
# The JPKI roots

`certificate.rs`: the table of root certificates, the search for the one that issued a certificate,
and `Certificate::verify_to_root`. The search goes by name and signature and takes the first root
that fits; the check of the two as a chain comes after it and looks at the dates.

The table is an argument of the search, so that a root can be asked to have no part in an answer
(`issuerOf_congr`), and `known` is the one the crate carries.
-/

namespace MynaCard.Roots

/-- Which hierarchy a root belongs to. -/
inductive Hierarchy
  | production
  | test
  deriving DecidableEq, Repr

/-- Which roots a search may give. -/
inductive Accept
  | productionOnly
  | productionAndTest
  deriving DecidableEq, Repr

/-- `Accept::allows`. -/
def Accept.allows (accept : Accept) (hierarchy : Hierarchy) : Bool :=
  accept = .productionAndTest ∨ hierarchy = .production

/-- Which certificate on the card a root is for. -/
inductive Purpose
  | userAuthentication
  | digitalSignature
  deriving DecidableEq, Repr

/-- One root. The test hierarchy has no generations. -/
structure Root where
  purpose : Purpose
  hierarchy : Hierarchy
  generation : Option UInt8
  der : Bytes
  deriving DecidableEq

/-- The files under `certs/` that are compiled in. -/
inductive CertFile
  | authca01
  | authca02
  | authca03
  | signca01
  | signca02
  | signca03
  | authcaTest2019
  | authcaTest2023
  | signcaTest2019
  | signcaTest2024
  deriving DecidableEq, Repr

/-- `roots::KNOWN`: the six roots J-LIS publishes, then those of the test hierarchy. `certs` gives
what is in the files. -/
def known (certs : CertFile → Bytes) : List Root :=
  [⟨.userAuthentication, .production, some 1, certs .authca01⟩,
    ⟨.userAuthentication, .production, some 2, certs .authca02⟩,
    ⟨.userAuthentication, .production, some 3, certs .authca03⟩,
    ⟨.digitalSignature, .production, some 1, certs .signca01⟩,
    ⟨.digitalSignature, .production, some 2, certs .signca02⟩,
    ⟨.digitalSignature, .production, some 3, certs .signca03⟩,
    ⟨.userAuthentication, .test, none, certs .authcaTest2019⟩,
    ⟨.userAuthentication, .test, none, certs .authcaTest2023⟩,
    ⟨.digitalSignature, .test, none, certs .signcaTest2019⟩,
    ⟨.digitalSignature, .test, none, certs .signcaTest2024⟩]

section

variable {x509 : X509Crate} (fields : X509Fields x509) (rsa : RsaCrate)

/-- `Root::certificate`. -/
def Root.certificate (x509 : X509Crate) (root : Root) : Run (Certificate x509) :=
  Certificate.parse x509 root.der

/-- The loop of `issuer_of`. A root that does not parse ends it. -/
def searchIssuer (cert : Certificate x509) : List Root → Run (Certificate x509)
  | [] => .error (.err (.signatureInvalid "no root this crate carries signed this certificate"))
  | root :: rest => do
    let candidate ← root.certificate x509
    if candidate.subject fields = cert.issuer fields ∧
        (cert.verifySignature fields rsa candidate).isOk then pure candidate
    else searchIssuer cert rest

/-- `roots::issuer_of`, in the roots of `table`. -/
def issuerOf (table : List Root) (cert : Certificate x509) (accept : Accept) :
    Run (Certificate x509) :=
  searchIssuer fields rsa cert (table.filter fun r => accept.allows r.hierarchy)

/-- `Certificate::verify_to_root`, up to the roots of `table`. -/
def verifyToRoot (table : List Root) (cert : Certificate x509) (on : Date) (accept : Accept) :
    Run Unit := do
  let root ← issuerOf fields rsa table cert accept
  Certificate.verifyChain fields rsa [cert, root] on

variable {fields rsa}

/-! ### The search -/

/-- What the search gives: a root of the list whose subject is the issuer, and under which the
certificate verifies. -/
theorem searchIssuer_sound {cert found : Certificate x509} {roots : List Root}
    (h : searchIssuer fields rsa cert roots = .ok found) :
    ∃ root ∈ roots, root.certificate x509 = .ok found ∧
      found.subject fields = cert.issuer fields ∧
      cert.verifySignature fields rsa found = .ok () := by
  induction roots with
  | nil => exact nomatch h
  | cons root rest ih =>
    rw [searchIssuer, Run.bind_eq_ok] at h
    obtain ⟨candidate, hparse, h⟩ := h
    split at h
    · rename_i hfits
      obtain rfl := Except.ok.inj h
      refine ⟨root, List.mem_cons_self, hparse, hfits.1, ?_⟩
      cases hsig : cert.verifySignature fields rsa candidate with
      | ok u => rfl
      | error e =>
        rw [hsig] at hfits
        exact absurd hfits.2 Bool.false_ne_true
    · obtain ⟨r, hr, hrest⟩ := ih h
      exact ⟨r, List.mem_cons_of_mem _ hr, hrest⟩

/-- The search stops at the first root that fits, so roots after those change nothing. -/
theorem searchIssuer_append_of_ok {cert found : Certificate x509} {roots : List Root}
    (h : searchIssuer fields rsa cert roots = .ok found) (more : List Root) :
    searchIssuer fields rsa cert (roots ++ more) = .ok found := by
  induction roots with
  | nil => exact nomatch h
  | cons root rest ih =>
    rw [searchIssuer, Run.bind_eq_ok] at h
    obtain ⟨candidate, hparse, h⟩ := h
    rw [List.cons_append, searchIssuer, Run.bind_eq_ok]
    refine ⟨candidate, hparse, ?_⟩
    split at h
    · rename_i hfits
      rw [if_pos hfits, h]
    · rename_i hfits
      rw [if_neg hfits, ih h]

/-- The search sees the roots it is allowed, in their order, and no others. -/
theorem issuerOf_congr {table table' : List Root} {accept : Accept}
    (h : (table.filter fun r => accept.allows r.hierarchy) =
      table'.filter fun r => accept.allows r.hierarchy) (cert : Certificate x509) :
    issuerOf fields rsa table cert accept = issuerOf fields rsa table' cert accept := by
  rw [issuerOf, issuerOf, h]

/-! ### Two settings -/

theorem allows_productionOnly (hierarchy : Hierarchy) :
    Accept.productionOnly.allows hierarchy = decide (hierarchy = .production) := by
  simp [Accept.allows]

theorem allows_productionAndTest (hierarchy : Hierarchy) :
    Accept.productionAndTest.allows hierarchy = true := by
  simp [Accept.allows]

/-- In the table of the crate the production roots come before the others. -/
theorem known_eq_production_append (certs : CertFile → Bytes) :
    ∃ rest, known certs =
      (known certs).filter (fun r => Accept.productionOnly.allows r.hierarchy) ++ rest :=
  ⟨(known certs).drop 6, rfl⟩

/-- A root found among the production roots is found among all. -/
theorem issuerOf_known_of_productionOnly {certs : CertFile → Bytes}
    {cert found : Certificate x509}
    (h : issuerOf fields rsa (known certs) cert .productionOnly = .ok found) :
    issuerOf fields rsa (known certs) cert .productionAndTest = .ok found := by
  obtain ⟨rest, hrest⟩ := known_eq_production_append certs
  have hall : ((known certs).filter fun r => Accept.productionAndTest.allows r.hierarchy) =
      known certs := by
    simp only [allows_productionAndTest, List.filter_true]
  rw [issuerOf, hall, hrest]
  exact searchIssuer_append_of_ok h rest

/-- **`verify_to_root`.** What it accepts is signed by an allowed root that bears the name of the
issuer, with the date within the validity of both; under `ProductionOnly` the other roots of the
table make no difference; and what is accepted then is accepted when they are allowed too. -/
theorem verifyToRoot_sound (fields : X509Fields x509) (rsa : RsaCrate) (certs : CertFile → Bytes)
    (cert : Certificate x509) (on : Date) :
    (∀ accept, verifyToRoot fields rsa (known certs) cert on accept = .ok () →
      ∃ root ∈ known certs, accept.allows root.hierarchy = true ∧
        ∃ anchor, root.certificate x509 = .ok anchor ∧
          anchor.subject fields = cert.issuer fields ∧
          cert.verifySignature fields rsa anchor = .ok () ∧
          cert.isValidOn fields on = true ∧ anchor.isValidOn fields on = true) ∧
    (∀ table, (table.filter fun r => r.hierarchy = .production) =
        ((known certs).filter fun r => r.hierarchy = .production) →
      verifyToRoot fields rsa table cert on .productionOnly =
        verifyToRoot fields rsa (known certs) cert on .productionOnly) ∧
    (verifyToRoot fields rsa (known certs) cert on .productionOnly = .ok () →
      verifyToRoot fields rsa (known certs) cert on .productionAndTest = .ok ()) := by
  refine ⟨?_, ?_, ?_⟩
  · intro accept hok
    obtain ⟨anchor, hsearch, hchain⟩ := Run.bind_eq_ok.mp hok
    obtain ⟨root, hroot, hparse, hname, hsig⟩ := searchIssuer_sound hsearch
    obtain ⟨hknown, hallows⟩ := List.mem_filter.mp hroot
    have hvalid := (Certificate.verifyChain_eq_ok_iff.mp hchain).valid
    exact ⟨root, hknown, hallows, anchor, hparse, hname, hsig,
      Certificate.isValidOn_iff.mpr (hvalid cert (by simp)),
      Certificate.isValidOn_iff.mpr (hvalid anchor (by simp))⟩
  · intro table htable
    rw [verifyToRoot, verifyToRoot, issuerOf_congr]
    simpa only [allows_productionOnly] using htable
  · intro hok
    obtain ⟨anchor, hsearch, hchain⟩ := Run.bind_eq_ok.mp hok
    exact Run.bind_eq_ok.mpr ⟨anchor, issuerOf_known_of_productionOnly hsearch, hchain⟩

end

end MynaCard.Roots

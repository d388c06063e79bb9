import Lifecycle.Text.Packed
import Lifecycle.Text.Runs

/-!
The direction of characters: of letters, digits and what stands between them.
-/

namespace Lifecycle.Text

inductive Direction where
  | leftToRight | rightToLeft | arabicLetter | arabicNumber | europeanNumber
  | signBeforeNumber | separatorInNumber | signAroundNumber | neutral | boundary | mark | other
deriving DecidableEq, Repr

def Direction.all : List Direction :=
  [.leftToRight, .rightToLeft, .arabicLetter, .arabicNumber, .europeanNumber, .signBeforeNumber, .separatorInNumber,
    .signAroundNumber, .neutral, .boundary, .mark, .other]

/-- The places of directions in `Direction.all`, and their runs. Where no domain has a character the run
before it goes on. -/
def directionRuns : List Nat := Packed.numbers [
  "JJLFJOLFICHDIFFBGBFBGCEKGBIGA0IGA0IEJbCIBHEIKHGIbJAYIBAoBICAHIOACI2ABIRKdRAEICAd5ICAeLKIAh5IFHCK",
  "bNBBKBBBKCBBKCBBKJBbWICCBHCCBGBCBICKLCbQKVDKHBDCCDKBCdFKIIBKGCCKCIBKECCEKCXKBC4K3CcZKLCPBbLKJBCI",
  "EBDKBBYKEBBKJBBKDBBKHBbJKFBCCbXKJCbKKbZAbXKBABKBAEKIAEKBADKPACKCA3KBAb0KBAEKGAGKBAUKEAMHCAHHBACK",
  "FAbZKCADK1AUKCADKBALKCAbZKBAEKIAEKDASKEALHIABKIAb0KBACKBABKGAGKKALKEA2KBAb3KBAMKDAbDIGHBIGKBADKB",
  "AbXKBABKDAFKSAKKEASIHACKBAb0KBAPKJANKEA0KCAbZKCAEKFAHKBAUKEA1KBAcIKFADKGAcZKBACKLHBAHKIAdCKBACKJ",
  "ALKIAcIKCA1KBABKBABKBIEAbTKOABKFABKCAFKbRAIKBAdGKEABKGABKCACKCAZKCAEKDAQKEANKBACKCAGKBAPKBAv5KDA",
  "bQIQAdAIBAu0IFAdSKDA3KCA4KOASKOAbXKHAIKBACKLAHHBABKDAQIbAAdVKCAbCKBAdWKDAEKCAJKBAGKHIGAeYIbCAXKC",
  "ACKDAbYKBABKJABKBACKIAGKNAbQKcUAbQKBABKFABKBAFKBAbIKJAMKCAbAKEACKCABKDAbYKBABKCADKBABKDAb0KIACKF",
  "AeVKDABKNABKHAEKBAGKBADKCAgGKcBAqLJEIbAHFIPGBIc1HbQKbUIbKHMIUAb2IeIFBHBIjCAcFI0ABIyWABIkTAiAIzQA",
  "fVIHADKEAGIHAd5KBAdAKbAIqFADIZAJKEACIBAGIEACIEAcYKEADIBAc0IBAgEIbQAg+QIcAAvuQIcAAj3IDAc5KEIBKKID",
  "A3KCAcQKCAOIbDAdFIBAdZKBADKBAEKBAZKCABIEKEAIHIAbUIMAcEKKASKSANKBAbGKIAZKLAbOKDAbQKBACKEACKCAbHKB",
  "AcDKGACKCACKLADKBAIKBAbPKBAbTKBABKDACKCAFKCABKBAbKKCAIKLAdJIcWAbFKBACKBAEKDAtzOKeUCRIs3KbFIbOCmN",
  "AiBIBAb4IcNADIcAAbNKeDAdAKBE5AdWKKAbeABi5IBBhBKPBbIKIBfFKGBcOIHBoACbEKMDQBbJKFIBBhRDbABbLKCBVCOI",
  "bKKGBbQCWKLC5BSKEBd0ABKBAbWKPALIUAKKBACKCAKKDAbRKEACKCAHKOAbQKDAbEKFABKJAb3KBAMKCAbUKJAKKEACKBA",
  "c5KDACKBABKCAGKBACKb5Ac5KBADKNAQKCAbZKCADKBAbFK0Ab1KHAMKBABKBABKBAOK5AbYKIACKDABKBAXKBAcUKGABKBA",
  "EKCABKCAhOKGAEKCABKCA1KbEAbTKIACKBABKCA5IbAAbLKBABKBACKGABKBAdFKDACKEABKJAh5KJABKCAiAKCABKBAEKBA",
  "eQKIAEKBAbAKGACKCAbIKGACKEAIKJABKGACKDAbOKNABKCAgGKBABKDABKBAgJKOAcUKXABKHABKCABKcLAbRKVABKJAcAK",
  "DACKBABKBAk1KCALKCAbUKIACKBABKBAXKcWAbFIIHEI4AfcBKBAGKZAlf4KMADKDAcoAKFAb1KHAbaYKBAb5KEAcPIBABKM",
  "AtfNKCAd7BIyAKcQAqXKDARKIACKHA4KEAb1IcZKDId1AcAIdAAbvAKbXAEKbSAIKBAOKBAWKbdFAiAKiAAbQKHAlXKSAbMK",
  "EAPHoRA2KEAh4KCAhTKBACKBAHKCAFKJAiCBgQKcSBbCKHBzGCt5ItAA3IDAb3IbZAd0Icm1"]

def direction (c : Char) : Direction := (Direction.all[classAt directionRuns c.toNat]?).getD .leftToRight

end Lifecycle.Text

import Lifecycle.Text.Packed
import Lifecycle.Text.Runs

/-!
The characters that a reader does not see, or not as characters of their own: control and format
characters, separators other than the blank, private and unassigned characters, the combining marks,
and the fillers of the Korean script. The two sound marks of half width stand for themselves and are
not among them.
-/

namespace Lifecycle.Text

/-- The gaps and runs of the characters that are not seen. -/
def invisibleRuns : List Nat := Packed.numbers [
  "AbAc5bCMBsSdQICGEHBBBUBhAHfGBbGCbSCDbOBBBCBCBJ1EGRKLBBbOVQBdFIBGCCBEbACBB43cZLBObLJHDYEBJBDBHPBZ",
  "FBBLFbAQbKbZbXBBBEIEBDHKC3BCBICCCWBHBBDEDBBCGCCCBBNCBDEYFBBGECCWBHBCBCBCEDYEBBHKCDBBMBBJBDBWBHBC",
  "BFDEIBBCDBPCEMHBICBICCCWBHBCBFDBCBGCCCPCBDESLBBGDDBEDCBBBCDCDDDMFBBCDDBDDBVVGDBIBDBXBQDBDETDBCCC",
  "EKHKBLBDBXBKBFDCCBBCXDBCEKBDOLBDBbJCBBCFDBDBCEDBKE0CCBSDYBJBBCHJCGHHKCDMbQBCLIINbFCBBBFBYBBBKBCJ",
  "BCFBBJKCEbAYC1BBBBBOBbESBFBCFbRIBGBNbFbNEBGBCCCZCEDQENBCCGBPBbIBBFBCePChIBECHBBBECbJBECbBBECHBBB",
  "ECPBbZBECcDF3D0GcWCGCuAB2DcZHSNTDCJSONBDPbUCBHIBCLJDKGKGLFKGcZHFCbCBBFcGK5EECDECBGHBDbKCFLbME0GL",
  "DbZCCDbYBBJBBCIGNKGKGOcWbQKEDIB3JMCbAECGbYBBCDBBNbQICFPDb4FbLCLLBNBHEBGBDCBFgAcAiWCGCbGCGCIBBBBB",
  "BB5CbVBPBOCGBTCDBJRYIbPRCC1BNDbCb4eMEu0WLVbyUClZDCFbNBBFBCbYHCPXJHBHBHBHBHBHBHBHbBc4bC0BcZMgW0QB",
  "bJGQBcWEdFFbLBbTBbKBcWJbQB8tNDbXJk2UbPEBKbACcQCGIg3URBDBEBZCFEKGbYIcEKMYNBbGIZLBM4GbQBCECCCBNBLE",
  "HBZBbJGCCCLDBIBBCKCbABbTBBDCCFCBBBYRCILGCGCGJHBHBb2EdVBCBEDKGk9EMXEbRiiElOCdKbGHMFFBBYBFBBBCBCB",
  "uKbAQQKWbDBTBEEFBeHEe5B4DGCGCGCDDHBHNCCMB0BTBCBPCObCd1FDEbNDcYBNDBbPbNeD3DbRQ1EbEJ4FbGK4BbFEObK",
  "e4CKGbEEbEEbIIbULMBPBHBCBLBPBHBCDbUMjXJWKIYGBbKBJcFGCBBbMBCDBCXBcIIJbQTBCFbBD1F1bGbYEUCbPPEBDB3K",
  "JHJHcAbAbFGMJbWD3C1F0HEMHcQcJbXbTNbTHbKMKGbGIYICgQ5BbKDBCCQGIJbHbIIWLJWSEEbG2UXJBBbWPHE4BCCBMbRE",
  "CCCBEOZHKJbEFBJSIbDBDLbUJBBIECBQBULSB2DCEGBCb5HBBBEBPBLGbPBDNKICBICCCWBHBCBFDBBBBECCCCDBMH2KBBCB",
  "BbGBBBCPBBCDBBDBCbHbYICDBBVBBBD4bQBCGBBCBBCBCEIKfGbPBCGECBC1bEbTICBBCELKGNTbLBBBCICGKGU21DBBCEBJ",
  "XfZbPJBCBdEcTMICBCIBCBYBFBCGEBDJKcGICbKIEBE1BKbIGCEIJBGCDbONBCJNcJHKcXBDBBBcYbCOKGJBbGOBBGK3DbAZ",
  "BHBCBcLHBCBbGVBJKGGBCBbFECBBBBHKGbMEKhWTCEJPBbEICDXcWBPbSN81dGdPBFLgEcsMdDNbbQRGZd81FsHgvZ4MDDK",
  "bwGrZH5BKEcRBKG4HBKbQHPKKBHBVFTnQb0gGc1FZCZbMcLFbYLNcAEOFJhgWbJbAdBdTip3EBHBCBjDPB3DCBOEImMciEdL",
  "FNDJHKCBCBd7Ah3DnUGXPRc5dUb2hWKbHCb2FDWCH4Eb3VcCDBd0UMUMcXJZeHcVBcHBCCBCCCEBMBBBHBcBBECIBHB2BEBF",
  "BBDHBkUCjECrSbXEbSIBOBHbdU5GGiFb4eSbNKHCKECkA4SbMEKFBoQ2EKgW4CLEBgA5BDBCBHCFJChAHBEBCBPBgFCJbQcE",
  "HBEKECyRcEcMb3gCEB1BCBBCBBKBEBBBBGBEBBBBBBDBCBBCBBBBBBBBBBCBBCEBHBEBEBBBKBRFDBFBRbUCiObMEdEMPCPB",
  "PBbFKfObY3NbMEJHCOGe0+ZDRDNDg0GMEBPMEbYIKGbII4CMECOJbHkYIOCNDLDbZBBEQCMEKHeTBdHbaFbjxAbAei4CfuOC",
  "hjRPtOcnCq4bpCe6LFijK7s8G"]

def isInvisible (c : Char) : Bool := inRuns invisibleRuns c.toNat

end Lifecycle.Text

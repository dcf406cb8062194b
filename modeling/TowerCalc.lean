import TowerCalc.Proofs.Canonical
import TowerCalc.Proofs.Dispatch
import TowerCalc.Proofs.Strictness
import TowerCalc.Session
import TowerCalc.Proofs.Digits
import TowerCalc.Proofs.Lockstep
import TowerCalc.Proofs.Rounding
import TowerCalc.Proofs.Conversion
import TowerCalc.Proofs.IntegerParts
import TowerCalc.Proofs.Remainders
import TowerCalc.Proofs.DecimalGrid
import TowerCalc.Proofs.DecimalSurvival
import TowerCalc.Proofs.Calculators
import TowerCalc.Proofs.ExactResults
import TowerCalc.Proofs.GivenDigits
import TowerCalc.Proofs.ReadAlike
import TowerCalc.Proofs.WholeRationals
import TowerCalc.Proofs.RealLine
import TowerCalc.Proofs.Registrations
import TowerCalc.Proofs.AdvertisedCounts
import TowerCalc.Proofs.Extrema
import TowerCalc.Proofs.FamilyChanges
import TowerCalc.Proofs.Commutation
import TowerCalc.Proofs.ExactRoots
import TowerCalc.Proofs.RationalPowers
import TowerCalc.Proofs.Neighbours
import TowerCalc.Proofs.Targets
import TowerCalc.Proofs.Moduli
import TowerCalc.Proofs.OddRoots
import TowerCalc.Proofs.Divisors
import TowerCalc.Proofs.NearestMultiples
import TowerCalc.Proofs.SignificantDigits
import TowerCalc.Proofs.ExactRemainders
import TowerCalc.Proofs.BinomialCoefficients
import TowerCalc.Proofs.Narrowing
import TowerCalc.Proofs.FractionalParts
import TowerCalc.Proofs.MergedSettings
import TowerCalc.Proofs.DecimalExponents
import TowerCalc.Proofs.RoundTrips

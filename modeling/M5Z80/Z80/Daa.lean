import M5Z80.Machine

/-!
# M5Z80.Z80.Daa

`DAATable` (`Z80DAA.h`): the accumulator and the flags after `DAA`, for
every accumulator and every setting of the carry, half-carry and subtract
flags.
-/

namespace M5Z80

/-- The table, sixteen words to a row, in the order of the source. -/
def daaRows : List Nat :=
  [
    0x0044_0100_0200_0304_0400_0504_0604_0700_0808_090c_1010_1114_1214_1310_1414_1510,
    0x1000_1104_1204_1300_1404_1500_1600_1704_180c_1908_2030_2134_2234_2330_2434_2530,
    0x2020_2124_2224_2320_2424_2520_2620_2724_282c_2928_3034_3130_3230_3334_3430_3534,
    0x3024_3120_3220_3324_3420_3524_3624_3720_3828_392c_4010_4114_4214_4310_4414_4510,
    0x4000_4104_4204_4300_4404_4500_4600_4704_480c_4908_5014_5110_5210_5314_5410_5514,
    0x5004_5100_5200_5304_5400_5504_5604_5700_5808_590c_6034_6130_6230_6334_6430_6534,
    0x6024_6120_6220_6324_6420_6524_6624_6720_6828_692c_7030_7134_7234_7330_7434_7530,
    0x7020_7124_7224_7320_7424_7520_7620_7724_782c_7928_8090_8194_8294_8390_8494_8590,
    0x8080_8184_8284_8380_8484_8580_8680_8784_888c_8988_9094_9190_9290_9394_9490_9594,
    0x9084_9180_9280_9384_9480_9584_9684_9780_9888_998c_0055_0111_0211_0315_0411_0515,
    0x0045_0101_0201_0305_0401_0505_0605_0701_0809_090d_1011_1115_1215_1311_1415_1511,
    0x1001_1105_1205_1301_1405_1501_1601_1705_180d_1909_2031_2135_2235_2331_2435_2531,
    0x2021_2125_2225_2321_2425_2521_2621_2725_282d_2929_3035_3131_3231_3335_3431_3535,
    0x3025_3121_3221_3325_3421_3525_3625_3721_3829_392d_4011_4115_4215_4311_4415_4511,
    0x4001_4105_4205_4301_4405_4501_4601_4705_480d_4909_5015_5111_5211_5315_5411_5515,
    0x5005_5101_5201_5305_5401_5505_5605_5701_5809_590d_6035_6131_6231_6335_6431_6535,
    0x6025_6121_6221_6325_6421_6525_6625_6721_6829_692d_7031_7135_7235_7331_7435_7531,
    0x7021_7125_7225_7321_7425_7521_7621_7725_782d_7929_8091_8195_8295_8391_8495_8591,
    0x8081_8185_8285_8381_8485_8581_8681_8785_888d_8989_9095_9191_9291_9395_9491_9595,
    0x9085_9181_9281_9385_9481_9585_9685_9781_9889_998d_a0b5_a1b1_a2b1_a3b5_a4b1_a5b5,
    0xa0a5_a1a1_a2a1_a3a5_a4a1_a5a5_a6a5_a7a1_a8a9_a9ad_b0b1_b1b5_b2b5_b3b1_b4b5_b5b1,
    0xb0a1_b1a5_b2a5_b3a1_b4a5_b5a1_b6a1_b7a5_b8ad_b9a9_c095_c191_c291_c395_c491_c595,
    0xc085_c181_c281_c385_c481_c585_c685_c781_c889_c98d_d091_d195_d295_d391_d495_d591,
    0xd081_d185_d285_d381_d485_d581_d681_d785_d88d_d989_e0b1_e1b5_e2b5_e3b1_e4b5_e5b1,
    0xe0a1_e1a5_e2a5_e3a1_e4a5_e5a1_e6a1_e7a5_e8ad_e9a9_f0b5_f1b1_f2b1_f3b5_f4b1_f5b5,
    0xf0a5_f1a1_f2a1_f3a5_f4a1_f5a5_f6a5_f7a1_f8a9_f9ad_0055_0111_0211_0315_0411_0515,
    0x0045_0101_0201_0305_0401_0505_0605_0701_0809_090d_1011_1115_1215_1311_1415_1511,
    0x1001_1105_1205_1301_1405_1501_1601_1705_180d_1909_2031_2135_2235_2331_2435_2531,
    0x2021_2125_2225_2321_2425_2521_2621_2725_282d_2929_3035_3131_3231_3335_3431_3535,
    0x3025_3121_3221_3325_3421_3525_3625_3721_3829_392d_4011_4115_4215_4311_4415_4511,
    0x4001_4105_4205_4301_4405_4501_4601_4705_480d_4909_5015_5111_5211_5315_5411_5515,
    0x5005_5101_5201_5305_5401_5505_5605_5701_5809_590d_6035_6131_6231_6335_6431_6535,
    0x0604_0700_0808_090c_0a0c_0b08_0c0c_0d08_0e08_0f0c_1010_1114_1214_1310_1414_1510,
    0x1600_1704_180c_1908_1a08_1b0c_1c08_1d0c_1e0c_1f08_2030_2134_2234_2330_2434_2530,
    0x2620_2724_282c_2928_2a28_2b2c_2c28_2d2c_2e2c_2f28_3034_3130_3230_3334_3430_3534,
    0x3624_3720_3828_392c_3a2c_3b28_3c2c_3d28_3e28_3f2c_4010_4114_4214_4310_4414_4510,
    0x4600_4704_480c_4908_4a08_4b0c_4c08_4d0c_4e0c_4f08_5014_5110_5210_5314_5410_5514,
    0x5604_5700_5808_590c_5a0c_5b08_5c0c_5d08_5e08_5f0c_6034_6130_6230_6334_6430_6534,
    0x6624_6720_6828_692c_6a2c_6b28_6c2c_6d28_6e28_6f2c_7030_7134_7234_7330_7434_7530,
    0x7620_7724_782c_7928_7a28_7b2c_7c28_7d2c_7e2c_7f28_8090_8194_8294_8390_8494_8590,
    0x8680_8784_888c_8988_8a88_8b8c_8c88_8d8c_8e8c_8f88_9094_9190_9290_9394_9490_9594,
    0x9684_9780_9888_998c_9a8c_9b88_9c8c_9d88_9e88_9f8c_0055_0111_0211_0315_0411_0515,
    0x0605_0701_0809_090d_0a0d_0b09_0c0d_0d09_0e09_0f0d_1011_1115_1215_1311_1415_1511,
    0x1601_1705_180d_1909_1a09_1b0d_1c09_1d0d_1e0d_1f09_2031_2135_2235_2331_2435_2531,
    0x2621_2725_282d_2929_2a29_2b2d_2c29_2d2d_2e2d_2f29_3035_3131_3231_3335_3431_3535,
    0x3625_3721_3829_392d_3a2d_3b29_3c2d_3d29_3e29_3f2d_4011_4115_4215_4311_4415_4511,
    0x4601_4705_480d_4909_4a09_4b0d_4c09_4d0d_4e0d_4f09_5015_5111_5211_5315_5411_5515,
    0x5605_5701_5809_590d_5a0d_5b09_5c0d_5d09_5e09_5f0d_6035_6131_6231_6335_6431_6535,
    0x6625_6721_6829_692d_6a2d_6b29_6c2d_6d29_6e29_6f2d_7031_7135_7235_7331_7435_7531,
    0x7621_7725_782d_7929_7a29_7b2d_7c29_7d2d_7e2d_7f29_8091_8195_8295_8391_8495_8591,
    0x8681_8785_888d_8989_8a89_8b8d_8c89_8d8d_8e8d_8f89_9095_9191_9291_9395_9491_9595,
    0x9685_9781_9889_998d_9a8d_9b89_9c8d_9d89_9e89_9f8d_a0b5_a1b1_a2b1_a3b5_a4b1_a5b5,
    0xa6a5_a7a1_a8a9_a9ad_aaad_aba9_acad_ada9_aea9_afad_b0b1_b1b5_b2b5_b3b1_b4b5_b5b1,
    0xb6a1_b7a5_b8ad_b9a9_baa9_bbad_bca9_bdad_bead_bfa9_c095_c191_c291_c395_c491_c595,
    0xc685_c781_c889_c98d_ca8d_cb89_cc8d_cd89_ce89_cf8d_d091_d195_d295_d391_d495_d591,
    0xd681_d785_d88d_d989_da89_db8d_dc89_dd8d_de8d_df89_e0b1_e1b5_e2b5_e3b1_e4b5_e5b1,
    0xe6a1_e7a5_e8ad_e9a9_eaa9_ebad_eca9_edad_eead_efa9_f0b5_f1b1_f2b1_f3b5_f4b1_f5b5,
    0xf6a5_f7a1_f8a9_f9ad_faad_fba9_fcad_fda9_fea9_ffad_0055_0111_0211_0315_0411_0515,
    0x0605_0701_0809_090d_0a0d_0b09_0c0d_0d09_0e09_0f0d_1011_1115_1215_1311_1415_1511,
    0x1601_1705_180d_1909_1a09_1b0d_1c09_1d0d_1e0d_1f09_2031_2135_2235_2331_2435_2531,
    0x2621_2725_282d_2929_2a29_2b2d_2c29_2d2d_2e2d_2f29_3035_3131_3231_3335_3431_3535,
    0x3625_3721_3829_392d_3a2d_3b29_3c2d_3d29_3e29_3f2d_4011_4115_4215_4311_4415_4511,
    0x4601_4705_480d_4909_4a09_4b0d_4c09_4d0d_4e0d_4f09_5015_5111_5211_5315_5411_5515,
    0x5605_5701_5809_590d_5a0d_5b09_5c0d_5d09_5e09_5f0d_6035_6131_6231_6335_6431_6535,
    0x0046_0102_0202_0306_0402_0506_0606_0702_080a_090e_0402_0506_0606_0702_080a_090e,
    0x1002_1106_1206_1302_1406_1502_1602_1706_180e_190a_1406_1502_1602_1706_180e_190a,
    0x2022_2126_2226_2322_2426_2522_2622_2726_282e_292a_2426_2522_2622_2726_282e_292a,
    0x3026_3122_3222_3326_3422_3526_3626_3722_382a_392e_3422_3526_3626_3722_382a_392e,
    0x4002_4106_4206_4302_4406_4502_4602_4706_480e_490a_4406_4502_4602_4706_480e_490a,
    0x5006_5102_5202_5306_5402_5506_5606_5702_580a_590e_5402_5506_5606_5702_580a_590e,
    0x6026_6122_6222_6326_6422_6526_6626_6722_682a_692e_6422_6526_6626_6722_682a_692e,
    0x7022_7126_7226_7322_7426_7522_7622_7726_782e_792a_7426_7522_7622_7726_782e_792a,
    0x8082_8186_8286_8382_8486_8582_8682_8786_888e_898a_8486_8582_8682_8786_888e_898a,
    0x9086_9182_9282_9386_9482_9586_9686_9782_988a_998e_3423_3527_3627_3723_382b_392f,
    0x4003_4107_4207_4303_4407_4503_4603_4707_480f_490b_4407_4503_4603_4707_480f_490b,
    0x5007_5103_5203_5307_5403_5507_5607_5703_580b_590f_5403_5507_5607_5703_580b_590f,
    0x6027_6123_6223_6327_6423_6527_6627_6723_682b_692f_6423_6527_6627_6723_682b_692f,
    0x7023_7127_7227_7323_7427_7523_7623_7727_782f_792b_7427_7523_7623_7727_782f_792b,
    0x8083_8187_8287_8383_8487_8583_8683_8787_888f_898b_8487_8583_8683_8787_888f_898b,
    0x9087_9183_9283_9387_9483_9587_9687_9783_988b_998f_9483_9587_9687_9783_988b_998f,
    0xa0a7_a1a3_a2a3_a3a7_a4a3_a5a7_a6a7_a7a3_a8ab_a9af_a4a3_a5a7_a6a7_a7a3_a8ab_a9af,
    0xb0a3_b1a7_b2a7_b3a3_b4a7_b5a3_b6a3_b7a7_b8af_b9ab_b4a7_b5a3_b6a3_b7a7_b8af_b9ab,
    0xc087_c183_c283_c387_c483_c587_c687_c783_c88b_c98f_c483_c587_c687_c783_c88b_c98f,
    0xd083_d187_d287_d383_d487_d583_d683_d787_d88f_d98b_d487_d583_d683_d787_d88f_d98b,
    0xe0a3_e1a7_e2a7_e3a3_e4a7_e5a3_e6a3_e7a7_e8af_e9ab_e4a7_e5a3_e6a3_e7a7_e8af_e9ab,
    0xf0a7_f1a3_f2a3_f3a7_f4a3_f5a7_f6a7_f7a3_f8ab_f9af_f4a3_f5a7_f6a7_f7a3_f8ab_f9af,
    0x0047_0103_0203_0307_0403_0507_0607_0703_080b_090f_0403_0507_0607_0703_080b_090f,
    0x1003_1107_1207_1303_1407_1503_1603_1707_180f_190b_1407_1503_1603_1707_180f_190b,
    0x2023_2127_2227_2323_2427_2523_2623_2727_282f_292b_2427_2523_2623_2727_282f_292b,
    0x3027_3123_3223_3327_3423_3527_3627_3723_382b_392f_3423_3527_3627_3723_382b_392f,
    0x4003_4107_4207_4303_4407_4503_4603_4707_480f_490b_4407_4503_4603_4707_480f_490b,
    0x5007_5103_5203_5307_5403_5507_5607_5703_580b_590f_5403_5507_5607_5703_580b_590f,
    0x6027_6123_6223_6327_6423_6527_6627_6723_682b_692f_6423_6527_6627_6723_682b_692f,
    0x7023_7127_7227_7323_7427_7523_7623_7727_782f_792b_7427_7523_7623_7727_782f_792b,
    0x8083_8187_8287_8383_8487_8583_8683_8787_888f_898b_8487_8583_8683_8787_888f_898b,
    0x9087_9183_9283_9387_9483_9587_9687_9783_988b_998f_9483_9587_9687_9783_988b_998f,
    0xfabe_fbba_fcbe_fdba_feba_ffbe_0046_0102_0202_0306_0402_0506_0606_0702_080a_090e,
    0x0a1e_0b1a_0c1e_0d1a_0e1a_0f1e_1002_1106_1206_1302_1406_1502_1602_1706_180e_190a,
    0x1a1a_1b1e_1c1a_1d1e_1e1e_1f1a_2022_2126_2226_2322_2426_2522_2622_2726_282e_292a,
    0x2a3a_2b3e_2c3a_2d3e_2e3e_2f3a_3026_3122_3222_3326_3422_3526_3626_3722_382a_392e,
    0x3a3e_3b3a_3c3e_3d3a_3e3a_3f3e_4002_4106_4206_4302_4406_4502_4602_4706_480e_490a,
    0x4a1a_4b1e_4c1a_4d1e_4e1e_4f1a_5006_5102_5202_5306_5402_5506_5606_5702_580a_590e,
    0x5a1e_5b1a_5c1e_5d1a_5e1a_5f1e_6026_6122_6222_6326_6422_6526_6626_6722_682a_692e,
    0x6a3e_6b3a_6c3e_6d3a_6e3a_6f3e_7022_7126_7226_7322_7426_7522_7622_7726_782e_792a,
    0x7a3a_7b3e_7c3a_7d3e_7e3e_7f3a_8082_8186_8286_8382_8486_8582_8682_8786_888e_898a,
    0x8a9a_8b9e_8c9a_8d9e_8e9e_8f9a_9086_9182_9282_9386_3423_3527_3627_3723_382b_392f,
    0x3a3f_3b3b_3c3f_3d3b_3e3b_3f3f_4003_4107_4207_4303_4407_4503_4603_4707_480f_490b,
    0x4a1b_4b1f_4c1b_4d1f_4e1f_4f1b_5007_5103_5203_5307_5403_5507_5607_5703_580b_590f,
    0x5a1f_5b1b_5c1f_5d1b_5e1b_5f1f_6027_6123_6223_6327_6423_6527_6627_6723_682b_692f,
    0x6a3f_6b3b_6c3f_6d3b_6e3b_6f3f_7023_7127_7227_7323_7427_7523_7623_7727_782f_792b,
    0x7a3b_7b3f_7c3b_7d3f_7e3f_7f3b_8083_8187_8287_8383_8487_8583_8683_8787_888f_898b,
    0x8a9b_8b9f_8c9b_8d9f_8e9f_8f9b_9087_9183_9283_9387_9483_9587_9687_9783_988b_998f,
    0x9a9f_9b9b_9c9f_9d9b_9e9b_9f9f_a0a7_a1a3_a2a3_a3a7_a4a3_a5a7_a6a7_a7a3_a8ab_a9af,
    0xaabf_abbb_acbf_adbb_aebb_afbf_b0a3_b1a7_b2a7_b3a3_b4a7_b5a3_b6a3_b7a7_b8af_b9ab,
    0xbabb_bbbf_bcbb_bdbf_bebf_bfbb_c087_c183_c283_c387_c483_c587_c687_c783_c88b_c98f,
    0xca9f_cb9b_cc9f_cd9b_ce9b_cf9f_d083_d187_d287_d383_d487_d583_d683_d787_d88f_d98b,
    0xda9b_db9f_dc9b_dd9f_de9f_df9b_e0a3_e1a7_e2a7_e3a3_e4a7_e5a3_e6a3_e7a7_e8af_e9ab,
    0xeabb_ebbf_ecbb_edbf_eebf_efbb_f0a7_f1a3_f2a3_f3a7_f4a3_f5a7_f6a7_f7a3_f8ab_f9af,
    0xfabf_fbbb_fcbf_fdbb_febb_ffbf_0047_0103_0203_0307_0403_0507_0607_0703_080b_090f,
    0x0a1f_0b1b_0c1f_0d1b_0e1b_0f1f_1003_1107_1207_1303_1407_1503_1603_1707_180f_190b,
    0x1a1b_1b1f_1c1b_1d1f_1e1f_1f1b_2023_2127_2227_2323_2427_2523_2623_2727_282f_292b,
    0x2a3b_2b3f_2c3b_2d3f_2e3f_2f3b_3027_3123_3223_3327_3423_3527_3627_3723_382b_392f,
    0x3a3f_3b3b_3c3f_3d3b_3e3b_3f3f_4003_4107_4207_4303_4407_4503_4603_4707_480f_490b,
    0x4a1b_4b1f_4c1b_4d1f_4e1f_4f1b_5007_5103_5203_5307_5403_5507_5607_5703_580b_590f,
    0x5a1f_5b1b_5c1f_5d1b_5e1b_5f1f_6027_6123_6223_6327_6423_6527_6627_6723_682b_692f,
    0x6a3f_6b3b_6c3f_6d3b_6e3b_6f3f_7023_7127_7227_7323_7427_7523_7623_7727_782f_792b,
    0x7a3b_7b3f_7c3b_7d3f_7e3f_7f3b_8083_8187_8287_8383_8487_8583_8683_8787_888f_898b,
    0x8a9b_8b9f_8c9b_8d9f_8e9f_8f9b_9087_9183_9283_9387_9483_9587_9687_9783_988b_998f
  ]

/-- `DAATable[i]`. -/
def daaTable (i : Nat) : UInt16 :=
  UInt16.ofNat ((daaRows.getD (i / 16) 0) >>> (16 * (15 - i % 16)))

end M5Z80
